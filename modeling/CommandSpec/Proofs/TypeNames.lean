import CommandSpec.Bindings.Generate
import CommandSpec.Proofs.Plannable
import CommandSpec.Proofs.TopDownPlan
import Mathlib.Data.List.Nodup

/-! The type names of a generated module, declared or imported. Planning keeps the type names of
records apart from all others (`Plan.records_apart`) and refuses a document in which they clash.
The configured names are taken as they are: neither are they compared with each other, nor is
anything compared with the imports. So the type names are pairwise different exactly when the
configured ones are, and none of these is imported. -/
namespace CommandSpec

/-! ## Imported names -/

/-- The name that an import brings into scope, which is what follows the last colon. -/
def importedName (path : String) : String :=
  String.ofList (path.toList.reverse.takeWhile (· != ':')).reverse

theorem importedName_eq (path name : String) (scope : List Char)
    (hpath : path.toList = scope ++ ':' :: name.toList) (hname : ':' ∉ name.toList) :
    importedName path = name := by
  have hkept : ∀ c ∈ name.toList.reverse, (c != ':') = true := fun c hc =>
    bne_iff_ne.mpr fun he => hname (he ▸ List.mem_reverse.mp hc)
  have hreverse : path.toList.reverse = name.toList.reverse ++ ':' :: scope.reverse := by
    simp [hpath]
  have hstop : (':' :: scope.reverse).takeWhile (· != ':') = [] := rfl
  unfold importedName
  rw [hreverse, List.takeWhile_append_of_pos hkept, hstop, List.append_nil, List.reverse_reverse,
    String.ofList_toList]

/-- All paths that bindings may import, each with the name it brings into scope. -/
def Config.importTable (config : Config) : List (String × String) :=
  [(config.runtimeText ++ "::CommandError", "CommandError"),
   (config.runtimeText ++ "::Context", "Context"),
   ("std::time::Duration", "Duration"), ("std::time::SystemTime", "SystemTime")]

theorem Config.importedName_of_mem (config : Config) (path name : String)
    (h : (path, name) ∈ config.importTable) : importedName path = name := by
  simp only [importTable, List.mem_cons, Prod.mk.injEq, List.not_mem_nil, or_false] at h
  rcases h with ⟨rfl, rfl⟩ | ⟨rfl, rfl⟩ | ⟨rfl, rfl⟩ | ⟨rfl, rfl⟩
  · exact importedName_eq _ _ (config.runtimeText.toList ++ [':']) (by simp) (by decide)
  · exact importedName_eq _ _ (config.runtimeText.toList ++ [':']) (by simp) (by decide)
  · exact importedName_eq _ _ "std::time:".toList (by decide) (by decide)
  · exact importedName_eq _ _ "std::time:".toList (by decide) (by decide)

theorem OptionSpec.importPath?_mem_importTable (o : OptionSpec) (config : Config) (path : String)
    (h : o.importPath? = some path) : ∃ name, (path, name) ∈ config.importTable := by
  obtain ⟨scalar, -, hs⟩ := Option.bind_eq_some_iff.mp h
  unfold ScalarType.importPath? at hs
  split at hs
  · cases hs
    exact ⟨"Duration", by simp [Config.importTable]⟩
  · cases hs
    exact ⟨"SystemTime", by simp [Config.importTable]⟩
  · cases hs

theorem Document.mem_importTable (document : Document) (config : Config) (path : String)
    (h : path ∈ document.importPaths config) : (path, importedName path) ∈ config.importTable := by
  have htable : ∃ name, (path, name) ∈ config.importTable := by
    rcases List.mem_append.mp h with h | h
    · rcases List.mem_pair.mp h with rfl | rfl
      · exact ⟨"CommandError", by simp [Config.importTable]⟩
      · exact ⟨"Context", by simp [Config.importTable]⟩
    · obtain ⟨r, -, hr⟩ := List.mem_flatMap.mp h
      obtain ⟨o, -, ho⟩ := List.mem_filterMap.mp hr
      exact o.importPath?_mem_importTable config path ho
  obtain ⟨name, hname⟩ := htable
  rwa [config.importedName_of_mem path name hname]

namespace Plan

variable {document : Document} {config : Config} {p : Plan}

theorem mem_importTable (h : Plan.build document config = .ok p) (path : String)
    (hp : path ∈ p.imports) : (path, importedName path) ∈ config.importTable := by
  obtain ⟨-, -, -, rfl⟩ := (build_eq_ok_iff ..).mp h
  have hneeded := (mem_insertNames path [] _).mp hp
  exact document.mem_importTable config path (by simpa using hneeded)

/-- Every import brings a name of its own. -/
theorem importedNames_nodup (h : Plan.build document config = .ok p) :
    (p.imports.map importedName).Nodup := by
  have hnames : (config.importTable.map Prod.snd).Nodup := by
    simp [Config.importTable]
  have himports : p.imports.Nodup := by
    obtain ⟨-, -, -, rfl⟩ := (build_eq_ok_iff ..).mp h
    have hascending := insertNames_pairwise [] (document.importPaths config) List.Pairwise.nil
    exact hascending.imp fun {a b} (hlt : a < b) (he : a = b) => String.lt_irrefl b (he ▸ hlt)
  refine List.Nodup.map_on (fun path hp path' hp' he => ?_) himports
  have hpath := mem_importTable h path hp
  have hpath' := mem_importTable h path' hp'
  exact congrArg Prod.fst (List.inj_on_of_nodup_map hnames hpath hpath' he)

/-- What an import brings into scope is neither a record nor a row of the command table. -/
theorem importedName_ne (h : Plan.build document config = .ok p) (path : String)
    (hp : path ∈ p.imports) :
    importedName path ≠ tableEntryTypeName ∧
      ∀ identifier, importedName path ≠ recordTypeName identifier := by
  have hname : importedName path ∈ config.importTable.map Prod.snd :=
    List.mem_map_of_mem (f := Prod.snd) (mem_importTable h path hp)
  generalize importedName path = name at hname
  have hends : ∀ name ∈ config.importTable.map Prod.snd,
      name ≠ tableEntryTypeName ∧ "Options".toList.isSuffixOf name.toList = false := by
    simp only [Config.importTable, List.map_cons, List.map_nil]
    decide
  obtain ⟨htable, hend⟩ := hends name hname
  refine ⟨htable, fun identifier he => ?_⟩
  rw [he, recordTypeName, String.toList_append] at hend
  have hsuffix :=
    List.isSuffixOf_iff_suffix.mpr (List.suffix_append identifier.toList "Options".toList)
  rw [hend] at hsuffix
  cases hsuffix

/-! ## All type names -/

/-- The type names in scope of the module: the configured ones, the records, the imports. -/
def typeNames (config : Config) (p : Plan) : List String :=
  config.typeClaims.map Prod.fst ++ (p.records.map OptionRecord.typeName ++
    p.imports.map importedName)

theorem records_apart (h : Plan.build document config = .ok p) :
    (p.records.map OptionRecord.typeName).Nodup ∧
      ∀ r ∈ p.records, r.typeName ∉ config.typeClaims.map Prod.fst := by
  obtain ⟨-, hfree, -, rfl⟩ := (build_eq_ok_iff ..).mp h
  obtain ⟨hnodup, htaken⟩ := hfree
  rw [document.typeClaims_names] at hnodup htaken
  have hstart : (Draft.start config).typeNames.map Prod.fst =
      (config.typeClaims.map Prod.fst).reverse := by
    rw [← Draft.start_typeNames, List.map_reverse, List.reverse_reverse]
  have hrecords : (document.topDownPlan config).records.map OptionRecord.typeName =
      (document.declaredRecords config).map DeclaredRecord.typeName := List.map_map
  refine ⟨hrecords ▸ hnodup, List.forall_mem_map.mpr fun r hr hm => ?_⟩
  refine htaken r.typeName (List.mem_map_of_mem hr) ?_
  rw [hstart]
  exact List.mem_reverse.mpr hm

end Plan

/-- The configured type names differ from each other and from the imported ones. -/
structure Config.NamesApart (config : Config) (imports : List String) : Prop where
  configured : config.traitText ≠ config.structText
  table : config.commandTable = true →
    config.traitText ≠ tableEntryTypeName ∧ config.structText ≠ tableEntryTypeName
  imported : ∀ path ∈ imports,
    config.traitText ≠ importedName path ∧ config.structText ≠ importedName path

theorem Config.nodup_typeClaims_iff (config : Config) :
    (config.typeClaims.map Prod.fst).Nodup ↔
      config.traitText ≠ config.structText ∧ (config.commandTable = true →
        config.traitText ≠ tableEntryTypeName ∧ config.structText ≠ tableEntryTypeName) := by
  unfold typeClaims
  cases config.commandTable <;> simp [and_assoc]

theorem Config.mem_typeClaims (config : Config) (name : String) :
    name ∈ config.typeClaims.map Prod.fst ↔ name = config.traitText ∨ name = config.structText ∨
      (config.commandTable = true ∧ name = tableEntryTypeName) := by
  unfold typeClaims
  cases config.commandTable <;> simp

theorem Plan.nodup_typeNames_iff {document : Document} {config : Config} {p : Plan}
    (h : Plan.build document config = .ok p) :
    (p.typeNames config).Nodup ↔ config.NamesApart p.imports := by
  obtain ⟨hrecords, hapart⟩ := records_apart h
  have himports := importedNames_nodup h
  have hbeside : (p.records.map OptionRecord.typeName).Disjoint (p.imports.map importedName) := by
    intro name hr hi
    obtain ⟨r, -, rfl⟩ := List.mem_map.mp hr
    obtain ⟨path, hpath, he⟩ := List.mem_map.mp hi
    exact (importedName_ne h path hpath).2 r.identifier he
  have himported (path : String) (hp : path ∈ p.imports) :
      importedName path ∉ config.typeClaims.map Prod.fst ↔
        config.traitText ≠ importedName path ∧ config.structText ≠ importedName path := by
    have htable := (importedName_ne h path hp).1
    rw [config.mem_typeClaims]
    grind
  have hrest : (p.records.map OptionRecord.typeName ++ p.imports.map importedName).Nodup :=
    hrecords.append himports hbeside
  unfold typeNames
  rw [List.nodup_append', config.nodup_typeClaims_iff]
  constructor
  · rintro ⟨⟨hconfigured, htable⟩, -, hdisjoint⟩
    refine ⟨hconfigured, htable, fun path hp => (himported path hp).mp fun hm => ?_⟩
    exact hdisjoint hm (List.mem_append_right _ (List.mem_map_of_mem hp))
  · rintro ⟨hconfigured, htable, hi⟩
    refine ⟨⟨hconfigured, htable⟩, hrest, fun name hc hm => ?_⟩
    rcases List.mem_append.mp hm with hm | hm
    · obtain ⟨r, hr, rfl⟩ := List.mem_map.mp hm
      exact hapart r hr hc
    · obtain ⟨path, hp, rfl⟩ := List.mem_map.mp hm
      exact (himported path hp).mpr (hi path hp) hc

/-! ## Clashes -/

/-- When nothing else is wrong with a document, a failure reports a type name taken twice. -/
theorem Plan.typeClash_of_sound (document : Document) (config : Config) (e : PlanError)
    (h : Plan.build document config = .error e)
    (hs : ∀ r ∈ document.declaredRecords config, r.Sound)
    (hm : ((document.topDownPlan config).methods.map Method.name).Nodup) :
    e.Clash (config.typeClaims ++ document.typeClaims config) := by
  rcases Plan.build_fault document config e h with ⟨r, hr, hf | hf⟩ | hf | hf
  · exact absurd (hs r hr).1 hf.not_sound
  · exact absurd (hs r hr).2 hf.not_nodup
  · rwa [Draft.start_typeNames] at hf
  · rw [← document.methodClaims_names] at hm
    exact absurd hm hf.not_nodup

/-- **The type names of a planned module are apart when the configured ones are.** They are
pairwise different exactly when the configured names differ from each other and from what is
imported. Given that, a document whose records clash with each other or with a configured name is
refused before anything is written, and the clash is the error if it is all that is wrong. -/
theorem typeNames_apart_or_refused (document : Document) (config : Config) :
    (∀ p, Plan.build document config = .ok p →
      ((p.typeNames config).Nodup ↔ config.NamesApart p.imports)) ∧
    (config.NamesApart (document.topDownPlan config).imports →
      ¬((document.topDownPlan config).typeNames config).Nodup →
      ∃ e, (∀ sink, generate document config sink = (.error (.plan e), sink)) ∧
        ((∀ r ∈ document.declaredRecords config, r.Sound) →
          ((document.topDownPlan config).methods.map Method.name).Nodup →
          ∃ name first second, e = .duplicateName name first second ∧
            [(name, first), (name, second)].Sublist
              (config.typeClaims ++ document.typeClaims config))) := by
  refine ⟨fun p hp => Plan.nodup_typeNames_iff hp, fun hapart hclash => ?_⟩
  cases h : Plan.build document config with
  | ok p =>
    obtain ⟨-, -, -, rfl⟩ := (Plan.build_eq_ok_iff ..).mp h
    exact absurd ((Plan.nodup_typeNames_iff h).mpr hapart) hclash
  | error e =>
    refine ⟨e, fun sink => by simp [generate, h], fun hs hm => ?_⟩
    have htypes := Plan.typeClash_of_sound document config e h hs hm
    cases e with
    | duplicateName name first second => exact ⟨name, first, second, rfl, htypes⟩
    | _ => exact absurd htypes id

/-- Both `a BC` and `a b c` declare options, so they derive one type name. -/
def sharedTypeName : Document where
  commands := ({} : Commands).insert "a"
    { commands := (({} : Commands).insert "BC"
          { options := [.inline { name := "port", typeTag := "int" }] }).insert "b"
          { commands := ({} : Commands).insert "c"
              { options := [.inline { name := "host", typeTag := "string" }] } } }

theorem sharedTypeName_refused :
    (∃ p, Plan.build sharedIdentifier { commandTable := true } = .ok p ∧
      (p.typeNames { commandTable := true }).Nodup) ∧
    ¬((sharedTypeName.topDownPlan {}).typeNames {}).Nodup ∧
    Plan.build sharedTypeName {} = .error (.duplicateName "ABCOptions" "a BC" "a b c") ∧
    ∃ e, ∀ sink, generate sharedTypeName {} sink = (.error (.plan e), sink) := by
  have hbuild : Plan.build sharedIdentifier { commandTable := true } =
      .ok (sharedIdentifier.topDownPlan { commandTable := true }) :=
    eq_ok_of_toOption (by decide +kernel)
  have hapart : Config.NamesApart { commandTable := true }
      (sharedIdentifier.topDownPlan { commandTable := true }).imports :=
    ⟨by decide, by decide, by decide +kernel⟩
  have hclash : ¬((sharedTypeName.topDownPlan {}).typeNames {}).Nodup := by decide +kernel
  have hrefused := (typeNames_apart_or_refused sharedTypeName {}).2
    ⟨by decide, nofun, by decide +kernel⟩ hclash
  refine ⟨⟨_, hbuild, ?_⟩, hclash, eq_error_of_failure? (by decide +kernel), ?_⟩
  · exact ((typeNames_apart_or_refused sharedIdentifier { commandTable := true }).1 _ hbuild).mpr
      hapart
  · obtain ⟨e, he, -⟩ := hrefused
    exact ⟨e, he⟩

private theorem planned_with_clash (config : Config)
    (h : (Plan.build {} config).toOption = some (Document.topDownPlan {} config))
    (hclash : ¬((Document.topDownPlan {} config).typeNames config).Nodup) :
    ∃ p, Plan.build {} config = .ok p ∧ ¬(p.typeNames config).Nodup :=
  ⟨_, eq_ok_of_toOption h, hclash⟩

/-- Configured names are not compared with each other, with the row type of the command table, or
with the imports: one name for the trait and the structure, a trait named as the table's rows, and
a trait named as an import are all planned. -/
theorem clashing_configuration_planned :
    (∃ p, Plan.build {} { traitName := some "Commands", structName := some "Commands" } = .ok p ∧
      ¬(p.typeNames { traitName := some "Commands", structName := some "Commands" }).Nodup) ∧
    (∃ p, Plan.build {} { traitName := some "CommandEntry", commandTable := true } = .ok p ∧
      ¬(p.typeNames { traitName := some "CommandEntry", commandTable := true }).Nodup) ∧
    ∃ p, Plan.build {} { traitName := some "Context" } = .ok p ∧
      ¬(p.typeNames { traitName := some "Context" }).Nodup :=
  ⟨planned_with_clash _ (by decide +kernel) (by decide +kernel),
    planned_with_clash _ (by decide +kernel) (by decide +kernel),
    planned_with_clash _ (by decide +kernel) (by decide +kernel)⟩

end CommandSpec
