import CommandSpec.Proofs.Identifiers
import CommandSpec.Proofs.Plannable
import CommandSpec.Proofs.RecordChains

/-! Which documents get legal names. Planning checks that an option has a name that is not blank,
and never what is derived from a name. So a plan may hold names that are no identifiers, even empty
ones; it holds none just when the command paths and option names of the document have the letters
that are asked for (`Plan.namesLegal_iff_nameable`). -/
namespace CommandSpec
open Naming

variable {chars : IdentifierChars}

/-- All names that a plan declares are identifiers. -/
structure Plan.NamesLegal (chars : IdentifierChars) (p : Plan) : Prop where
  methods : ∀ m ∈ p.methods, IsIdentifier chars m.name
  fields : ∀ r ∈ p.records, ∀ f ∈ r.fields, IsIdentifier chars f.name
  parents : ∀ r ∈ p.records, ∀ parent ∈ r.parent, IsIdentifier chars parent.field
  types : ∀ r ∈ p.records, IsIdentifier chars r.typeName

/-- Some command of a forest declares options. -/
def CommandForest.Declares (forest : CommandForest) (path : List String) : Prop :=
  ∃ v ∈ forest.visits path, v.declaration.options ≠ []

/-- Identifiers can be derived from the names of a document. -/
structure Document.Nameable (chars : IdentifierChars) (document : Document) (config : Config) :
    Prop where
  /-- Hooks have letters of their own. -/
  commands : ∀ v ∈ document.commands.forest.visits [], Spells chars (pathLetters v.path)
  actions : ∀ v ∈ document.commands.forest.visits [], v.isBranch = false → pathLetters v.path ≠ []
  options : ∀ path command, document.nodeAt? path = some command →
    ∀ o, .inline o ∈ command.options → SpellsName chars (snakeLetters o.name)
  /-- A record is held by the records below under its command's name. -/
  holders : ∀ v ∈ document.commands.forest.visits [], v.declaration.options ≠ [] →
    v.children.Declares v.path → SpellsName chars (pathLetters v.path)
  global : document.options ≠ [] → document.commands.forest.Declares [] →
    SpellsName chars (snakeLetters config.globalOptionsText)
  types : ∀ v ∈ document.commands.forest.visits [], v.declaration.options ≠ [] →
    Spells chars (titleLetters v.path)

/-! ## One node -/

theorem hooks_legal_iff (path : List String) (options description : Option String) :
    (∀ m ∈ hooks path options description, IsIdentifier chars m.name) ↔
      Spells chars (pathLetters path) := by
  have hbefore : IsIdentifier chars (methodName path (some "hook_before")) ↔
      Spells chars (pathLetters path) :=
    isIdentifier_hook_iff path "hook_before" "hookbefore".toList ⟨by decide, by decide⟩ (by decide)
      (by decide)
  have hafter : IsIdentifier chars (methodName path (some "hook_after")) ↔
      Spells chars (pathLetters path) :=
    isIdentifier_hook_iff path "hook_after" "hookafter".toList ⟨by decide, by decide⟩ (by decide)
      (by decide)
  simp [hooks, hbefore, hafter]

namespace Site

theorem methods_legal_iff (s : Site) :
    (∀ m ∈ s.methods, IsIdentifier chars m.name) ↔
      Spells chars (pathLetters s.path) ∧ (s.isBranch = false → pathLetters s.path ≠ []) := by
  unfold methods
  simp only
  split
  · rename_i hbranch
    simp [hooks_legal_iff, hbranch]
  · rename_i hbranch
    rw [List.forall_mem_singleton, isIdentifier_action_iff]
    constructor
    · exact fun h => ⟨h.toSpells, fun _ => h.ne_nil⟩
    · exact fun h => ⟨h.1, h.2 (by simpa using hbranch)⟩

/-- The record of a command that declares options. -/
theorem forall_records_iff (s : Site) (P : OptionRecord → Prop) :
    (∀ r ∈ s.records, P r) ↔ (s.declaration.options ≠ [] →
      P (DeclaredRecord.record
        ⟨nodeIdentifier s.path, s.inherited, s.declaration.options, s.path, s.owner⟩)) := by
  unfold records declaredRecord
  cases ho : s.declaration.options with
  | nil => simp
  | cons entry rest => simp

end Site

/-- What holds of all commands of a document holds of all sites, and the other way round. -/
theorem Document.forall_sites_iff (document : Document) (config : Config)
    (P : CommandVisit → Prop) :
    (∀ s ∈ document.sites config, P s.toCommandVisit) ↔
      ∀ v ∈ document.commands.forest.visits [], P v := by
  rw [← CommandForest.sites_toCommandVisit _ _ (document.globalRecord config),
    List.forall_mem_map]
  rfl

/-! ## Records that are held -/

/-- The records held by those of a forest: the one handed down to it if any command declares
options, and that of each command which does so above another. -/
theorem CommandForest.forall_inherited_iff (P : EmbeddedRecord → Prop) (forest : CommandForest)
    (path : List String) (inherited : Option EmbeddedRecord) :
    (∀ s ∈ forest.sites path inherited, s.declaration.options ≠ [] → ∀ r ∈ s.inherited, P r) ↔
      (forest.Declares path → ∀ r ∈ inherited, P r) ∧
      ∀ v ∈ forest.visits path, v.declaration.options ≠ [] → v.children.Declares v.path →
        P ⟨nodeIdentifier v.path, methodName v.path none⟩ := by
  induction forest generalizing path inherited with
  | nil => simp [sites, visits, Declares]
  | node name declaration children siblings ihc ihs =>
    have hdeclares : (node name declaration children siblings).Declares path ↔
        declaration.options ≠ [] ∨ children.Declares (path ++ [name]) ∨ siblings.Declares path := by
      simp only [Declares, visits, List.exists_mem_cons_iff, List.mem_append, or_and_right,
        exists_or]
    rw [hdeclares]
    simp only [sites, visits, List.forall_mem_cons, List.forall_mem_append, ihc, ihs]
    by_cases ho : declaration.options = []
    · have hforce (r : Option EmbeddedRecord) :
          Site.inForce ⟨⟨path ++ [name], declaration, children⟩, r⟩ = r := by
        simp [Site.inForce, Site.ownRecord, ho]
      rw [hforce]
      tauto
    · have hforce (r : Option EmbeddedRecord) :
          Site.inForce ⟨⟨path ++ [name], declaration, children⟩, r⟩ =
            some ⟨nodeIdentifier (path ++ [name]), methodName (path ++ [name]) none⟩ := by
        simp [Site.inForce, Site.ownRecord, ho]
      rw [hforce]
      simp only [Option.mem_def, Option.some.injEq, forall_eq']
      tauto

/-! ## The whole document -/

namespace Document

theorem methods_legal_iff (document : Document) (config : Config) (chars : IdentifierChars) :
    (∀ m ∈ (document.topDownPlan config).methods, IsIdentifier chars m.name) ↔
      (∀ v ∈ document.commands.forest.visits [], Spells chars (pathLetters v.path)) ∧
        ∀ v ∈ document.commands.forest.visits [], v.isBranch = false → pathLetters v.path ≠ [] := by
  have hmethods : (document.topDownPlan config).methods =
      (document.rootBindings config).methods ++ (document.sites config).flatMap Site.methods := by
    simp only [topDownPlan, outline, List.flatMap_cons, List.flatMap_map]
    rfl
  have hroot : ∀ m ∈ (document.rootBindings config).methods, IsIdentifier chars m.name :=
    (hooks_legal_iff [] _ none).mpr (spells_nil chars)
  rw [hmethods, List.forall_mem_append, List.forall_mem_flatMap, and_iff_right hroot,
    ← forall₂_and, ← document.forall_sites_iff config]
  exact forall₂_congr fun s _ => s.methods_legal_iff

theorem fields_legal_iff (document : Document) (config : Config) (chars : IdentifierChars) :
    (∀ r ∈ (document.topDownPlan config).records, ∀ f ∈ r.fields, IsIdentifier chars f.name) ↔
      ∀ path command, document.nodeAt? path = some command →
        ∀ o, .inline o ∈ command.options → SpellsName chars (snakeLetters o.name) := by
  have hrecord (r : DeclaredRecord) :
      (∀ f ∈ r.record.fields, IsIdentifier chars f.name) ↔
        ∀ entry ∈ r.options, ∀ o, entry = .inline o → SpellsName chars (snakeLetters o.name) := by
    simp only [DeclaredRecord.record, List.forall_mem_map, mem_inlineOptions]
    constructor
    · rintro h entry he o rfl
      exact (isIdentifier_fieldName_iff o.name).mp (h o he)
    · exact fun h o ho => (isIdentifier_fieldName_iff o.name).mpr (h _ ho o rfl)
  rw [topDownPlan, List.forall_mem_map, forall₂_congr fun r _ => hrecord r,
    document.forall_declaredRecords_iff config]
  refine forall₂_congr fun path command => forall_congr' fun _ => ?_
  constructor
  · exact fun h o ho => h _ ho o rfl
  · rintro h entry he o rfl
    exact h o he

/-- The record of the document's own options comes before those of its commands. -/
theorem forall_records_iff (document : Document) (config : Config) (P : OptionRecord → Prop) :
    (∀ r ∈ (document.topDownPlan config).records, P r) ↔
      (∀ r ∈ document.rootRecord config, P r.record) ∧
        ∀ s ∈ document.sites config, ∀ r ∈ s.records, P r := by
  rw [document.topDownPlan_records, List.forall_mem_append, List.forall_mem_map,
    List.forall_mem_flatMap]
  simp only [Option.mem_toList, Option.mem_def]

theorem parents_legal_iff (document : Document) (config : Config) (chars : IdentifierChars) :
    (∀ r ∈ (document.topDownPlan config).records, ∀ parent ∈ r.parent,
        IsIdentifier chars parent.field) ↔
      (document.options ≠ [] → document.commands.forest.Declares [] →
        SpellsName chars (snakeLetters config.globalOptionsText)) ∧
      ∀ v ∈ document.commands.forest.visits [], v.declaration.options ≠ [] →
        v.children.Declares v.path → SpellsName chars (pathLetters v.path) := by
  have hroot : ∀ r ∈ document.rootRecord config, ∀ parent ∈ r.record.parent,
      IsIdentifier chars parent.field := by
    intro r hr
    obtain ⟨-, hr⟩ := Option.ite_none_left_eq_some.mp hr
    cases hr
    exact nofun
  have hglobal : (∀ r ∈ document.globalRecord config, IsIdentifier chars r.field) ↔
      (document.options ≠ [] → SpellsName chars (snakeLetters config.globalOptionsText)) := by
    unfold globalRecord
    cases document.options with
    | nil => simp
    | cons entry rest => simp [isIdentifier_fieldName_iff]
  rw [document.forall_records_iff config, and_iff_right hroot]
  simp only [Site.forall_records_iff]
  refine (document.commands.forest.forall_inherited_iff (fun r => IsIdentifier chars r.field) []
    (document.globalRecord config)).trans ?_
  simp only [isIdentifier_action_iff, hglobal]
  exact and_congr_left' forall_comm

theorem types_legal_iff (document : Document) (config : Config)
    (h : IsIdentifier chars config.globalOptionsText) :
    (∀ r ∈ (document.topDownPlan config).records, IsIdentifier chars r.typeName) ↔
      ∀ v ∈ document.commands.forest.visits [], v.declaration.options ≠ [] →
        Spells chars (titleLetters v.path) := by
  have hroot : ∀ r ∈ document.rootRecord config, IsIdentifier chars r.record.typeName := by
    intro r hr
    obtain ⟨-, hr⟩ := Option.ite_none_left_eq_some.mp hr
    cases hr
    exact isIdentifier_recordTypeName h
  have hsite (s : Site) : (∀ r ∈ s.records, IsIdentifier chars r.typeName) ↔
      (s.declaration.options ≠ [] → Spells chars (titleLetters s.path)) :=
    (s.forall_records_iff _).trans
      (imp_congr_right fun _ => isIdentifier_recordTypeName_iff s.path)
  rw [document.forall_records_iff config, and_iff_right hroot,
    ← document.forall_sites_iff config]
  exact forall₂_congr fun s _ => hsite s

end Document

/-- **Legal names are a matter of letters.** The names of a plan are identifiers exactly when every
command path spells one, with a letter at least where no hook's suffix follows, when every option
name spells one, and when the configured name of the global record does so where another record
holds that one. Planning succeeds without any of this. -/
theorem Plan.namesLegal_iff_nameable (chars : IdentifierChars) (document : Document)
    (config : Config) (h : IsIdentifier chars config.globalOptionsText) (p : Plan)
    (hp : Plan.build document config = .ok p) :
    p.NamesLegal chars ↔ document.Nameable chars config := by
  obtain ⟨-, -, -, rfl⟩ := (Plan.build_eq_ok_iff ..).mp hp
  have hmethods := document.methods_legal_iff config chars
  have hfields := document.fields_legal_iff config chars
  have hparents := document.parents_legal_iff config chars
  have htypes := document.types_legal_iff config h
  constructor
  · intro hlegal
    obtain ⟨hcommands, hactions⟩ := hmethods.mp hlegal.methods
    obtain ⟨hglobal, hholders⟩ := hparents.mp hlegal.parents
    exact ⟨hcommands, hactions, hfields.mp hlegal.fields, hholders, hglobal,
      htypes.mp hlegal.types⟩
  · intro hn
    exact ⟨hmethods.mpr ⟨hn.commands, hn.actions⟩, hfields.mpr hn.options,
      hparents.mpr ⟨hn.global, hn.holders⟩, htypes.mpr hn.types⟩

/-- Words of the language on all levels. -/
def keywordNames : Document where
  options := [.inline { name := "type", typeTag := "string" }]
  commands := ({} : Commands).insert "move" {}

theorem keywordNames_legal :
    ∃ p, Plan.build keywordNames {} = .ok p ∧ p.NamesLegal asciiIdentifiers ∧
      p.methods.map Method.name = ["hook_before", "hook_after", "r#move"] ∧
      p.records.map (fun r => r.fields.map RecordField.name) = [["r#type"]] := by
  have hbuild : Plan.build keywordNames {} = .ok (keywordNames.topDownPlan {}) :=
    eq_ok_of_toOption (by decide +kernel)
  have hglobal : IsIdentifier asciiIdentifiers (Config.globalOptionsText {}) :=
    Or.inl ⟨SpellsName.body ⟨spells_of_ascii (by decide), by decide⟩ (by decide), by decide⟩
  have hvisits : keywordNames.commands.forest.visits [] = [⟨["move"], {}, .nil⟩] := by decide
  refine ⟨_, hbuild,
    (Plan.namesLegal_iff_nameable asciiIdentifiers keywordNames {} hglobal _ hbuild).mpr ?_,
    by decide +kernel, by decide +kernel⟩
  have hnone : ∀ v ∈ keywordNames.commands.forest.visits [], v.declaration.options = [] := by
    decide
  refine ⟨?_, ?_, fun path command hc o ho => ?_, fun v hv hne => absurd (hnone v hv) hne,
    fun _ ⟨v, hv, hne⟩ => absurd (hnone v hv) hne, fun v hv hne => absurd (hnone v hv) hne⟩
  · rw [hvisits]
    exact List.forall_mem_singleton.mpr (by decide +kernel)
  · rw [hvisits]
    exact List.forall_mem_singleton.mpr (by decide +kernel)
  · rcases (keywordNames.nodeAt?_eq_some_iff path command).mp hc with ⟨-, rfl⟩ | hv
    · cases List.mem_singleton.mp ho
      decide +kernel
    · rw [show command.options = [] from hnone _ hv] at ho
      cases ho

/-- An option and a command without letters or digits. -/
def dashes : Document where
  options := [.inline { name := "--", typeTag := "bool" }]
  commands := ({} : Commands).insert "--" {}

/-- Neither is refused: both have no name in the plan. -/
theorem dashes_planned :
    ∃ p, Plan.build dashes {} = .ok p ∧ (∃ m ∈ p.methods, m.name = "") ∧
      (∃ r ∈ p.records, ∃ f ∈ r.fields, f.name = "") ∧ ¬p.NamesLegal asciiIdentifiers := by
  have hmethod : ∃ m ∈ (dashes.topDownPlan {}).methods, m.name = "" := by decide +kernel
  refine ⟨dashes.topDownPlan {}, eq_ok_of_toOption (by decide +kernel), hmethod,
    by decide +kernel, fun hlegal => ?_⟩
  obtain ⟨m, hm, hname⟩ := hmethod
  exact not_isIdentifier_empty (hname ▸ hlegal.methods m hm)

end CommandSpec
