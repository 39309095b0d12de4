import CommandSpec.Proofs.Planning

/-! When planning succeeds. What the planner asks is said here of the nodes of a document, found
by their paths, and of the names they derive; the order of the checks does not appear. A
document is planned exactly when all of it holds, and an error is a violation of it. -/
namespace CommandSpec

/-- Everything planning asks of a document. -/
structure Plannable (document : Document) (config : Config) : Prop where
  options : ∀ path command, document.nodeAt? path = some command →
    ∀ entry ∈ command.options, entry.Sound
  /-- The fields of a record have different names, the embedded record's among them. -/
  fields : ∀ r ∈ document.declaredRecords config, (r.claims.map Prod.fst).Nodup
  types : ((document.declaredRecords config).map DeclaredRecord.typeName).Nodup
  configured : ∀ r ∈ document.declaredRecords config,
    r.typeName ≠ config.traitText ∧ r.typeName ≠ config.structText
  methods : ((document.topDownPlan config).methods.map Method.name).Nodup

/-- The configured type names, each with what it stands for. -/
def Config.typeClaims (config : Config) : List (String × String) :=
  [(config.traitText, "trait name"), (config.structText, "struct name")] ++
    if config.commandTable then [(tableEntryTypeName, "command table")] else []

/-- The error states something that is wrong with the document: the fault of an option, or a
name that two fields of a record, two types or two methods derive. -/
def PlanError.Violates (document : Document) (config : Config) (e : PlanError) : Prop :=
  (∃ path command, document.nodeAt? path = some command ∧ e.OptionFault path command.options) ∨
    (∃ r ∈ document.declaredRecords config, e.Clash r.claims) ∨
    e.Clash (config.typeClaims ++ document.typeClaims config) ∨
    e.Clash (document.methodClaims config)

/-! ## Records and the nodes that declare them -/

namespace Document

theorem exists_declaredRecord (document : Document) (config : Config) (path : List String)
    (command : Command) (h : document.nodeAt? path = some command)
    (hne : command.options.isEmpty = false) :
    ∃ r ∈ document.declaredRecords config, r.path = path ∧ r.options = command.options := by
  rcases document.root_or_site config path command h with ⟨rfl, rfl⟩ | ⟨s, hs, hv⟩
  · have hne : document.options.isEmpty = false := hne
    have hr : document.rootRecord config =
        some ⟨config.globalOptionsText, none, document.options, [], "global options"⟩ :=
      if_neg (by simp [hne])
    exact ⟨_, (document.mem_declaredRecords config _).mpr
      ⟨document.rootBindings config, List.mem_cons_self .., hr⟩, rfl, rfl⟩
  · have hoptions : s.declaration.options = command.options :=
      congrArg (·.declaration.options) hv
    have hr : s.declaredRecord = some ⟨Naming.nodeIdentifier s.path, s.inherited,
        s.declaration.options, s.path, s.owner⟩ := if_neg (by simp [hoptions, hne])
    exact ⟨_, (document.mem_declaredRecords config _).mpr
      ⟨s.bindings config, List.mem_cons_of_mem _ (List.mem_map_of_mem hs), hr⟩,
      congrArg CommandVisit.path hv, hoptions⟩

/-- The options of all records are the options of all nodes. -/
theorem forall_declaredRecords_iff (document : Document) (config : Config)
    (P : OptionEntry → Prop) :
    (∀ r ∈ document.declaredRecords config, ∀ entry ∈ r.options, P entry) ↔
      ∀ path command, document.nodeAt? path = some command →
        ∀ entry ∈ command.options, P entry := by
  constructor
  · intro h path command hn entry he
    have hne : command.options.isEmpty = false := by
      cases ho : command.options with
      | nil => simp [ho] at he
      | cons => rfl
    obtain ⟨r, hr, -, ho⟩ := document.exists_declaredRecord config path command hn hne
    exact h r hr entry (ho ▸ he)
  · intro h r hr entry he
    obtain ⟨-, command, hn, ho⟩ := document.exists_node_of_mem_declaredRecords config r hr
    exact h r.path command hn entry (ho ▸ he)

end Document

/-! ## Configured names -/

theorem Draft.start_typeNames (config : Config) :
    (Draft.start config).typeNames.reverse = config.typeClaims := by
  unfold Draft.start Config.typeClaims
  cases config.commandTable <;> rfl

/-- No record has the type name of a table row. -/
theorem recordTypeName_ne_tableEntryTypeName (identifier : String) :
    recordTypeName identifier ≠ tableEntryTypeName := by
  intro h
  have hlast := congrArg (fun s : String => s.toList.getLast?) h
  simp [recordTypeName, tableEntryTypeName] at hlast

theorem Document.typeClaims_free_iff (document : Document) (config : Config) :
    (Draft.start config).typeNames.Free (document.typeClaims config) ↔
      ((document.declaredRecords config).map DeclaredRecord.typeName).Nodup ∧
        ∀ r ∈ document.declaredRecords config,
          r.typeName ≠ config.traitText ∧ r.typeName ≠ config.structText := by
  have hmem (name : String) : name ∈ (Draft.start config).typeNames.map Prod.fst ↔
      name = config.traitText ∨ name = config.structText ∨
        (config.commandTable = true ∧ name = tableEntryTypeName) := by
    rw [← List.mem_reverse, ← List.map_reverse, Draft.start_typeNames, Config.typeClaims]
    cases config.commandTable <;> simp
  have htable (r : DeclaredRecord) : r.typeName ≠ tableEntryTypeName :=
    recordTypeName_ne_tableEntryTypeName r.identifier
  simp only [Registry.Free, typeClaims_names, List.forall_mem_map, hmem]
  refine and_congr_right fun _ => forall₂_congr fun r _ => ?_
  simp [htable r]

/-- **Planning succeeds exactly on plannable documents,** and an error is a violation. -/
theorem Plan.build_succeeds_iff_plannable (document : Document) (config : Config) :
    ((∃ p, Plan.build document config = .ok p) ↔ Plannable document config) ∧
      ∀ e, Plan.build document config = .error e → e.Violates document config := by
  refine ⟨⟨?_, fun h => ?_⟩, fun e h => ?_⟩
  · rintro ⟨p, hp⟩
    obtain ⟨hs, ht, hm, -⟩ := (Plan.build_eq_ok_iff ..).mp hp
    obtain ⟨htypes, hconfigured⟩ := (document.typeClaims_free_iff config).mp ht
    rw [document.methodClaims_names] at hm
    exact ⟨(document.forall_declaredRecords_iff config _).mp fun r hr => (hs r hr).1,
      fun r hr => (hs r hr).2, htypes, hconfigured, hm⟩
  · refine ⟨_, (Plan.build_eq_ok_iff ..).mpr ⟨fun r hr => ⟨?_, h.fields r hr⟩, ?_, ?_, rfl⟩⟩
    · exact (document.forall_declaredRecords_iff config _).mpr h.options r hr
    · exact (document.typeClaims_free_iff config).mpr ⟨h.types, h.configured⟩
    · rw [document.methodClaims_names]
      exact h.methods
  · rcases Plan.build_fault document config e h with ⟨r, hr, hf | hf⟩ | hf | hf
    · obtain ⟨-, command, hn, ho⟩ := document.exists_node_of_mem_declaredRecords config r hr
      exact Or.inl ⟨r.path, command, hn, ho ▸ hf⟩
    · exact Or.inr (Or.inl ⟨r, hr, hf⟩)
    · rw [Draft.start_typeNames] at hf
      exact Or.inr (Or.inr (Or.inl hf))
    · exact Or.inr (Or.inr (Or.inr hf))

/-- Two leaves, `foo bar` and `fooBar`, that derive one method name. -/
def sharedMethodName : Document where
  commands := (({} : Commands).insert "fooBar" {}).insert "foo"
    { commands := ({} : Commands).insert "bar" {} }

theorem sharedMethodName_not_plannable :
    ¬Plannable sharedMethodName {} ∧
      (PlanError.duplicateName "foo_bar" "foo bar" "fooBar").Violates sharedMethodName {} := by
  have h : Plan.build sharedMethodName {} =
      .error (.duplicateName "foo_bar" "foo bar" "fooBar") :=
    eq_error_of_failure? (by decide +kernel)
  obtain ⟨hiff, hviolates⟩ := Plan.build_succeeds_iff_plannable sharedMethodName {}
  refine ⟨fun hp => ?_, hviolates _ h⟩
  obtain ⟨p, hp⟩ := hiff.mpr hp
  rw [h] at hp
  cases hp

end CommandSpec
