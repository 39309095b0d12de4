import CommandSpec.Proofs.NameChars
import CommandSpec.Proofs.TopDownPlan

/-! The names of a plan. Every name that a plan holds is derived or configured, so all of them
are plain when the configured ones are; imports stay on one line, and the type of a field is one
of a few fixed texts. -/
namespace CommandSpec
open Naming

structure EmbeddedRecord.Plain (r : EmbeddedRecord) : Prop where
  identifier : CommandSpec.Plain r.identifier.toList
  field : CommandSpec.Plain r.field.toList

structure Method.Plain (m : Method) : Prop where
  name : CommandSpec.Plain m.name.toList
  options : ∀ identifier ∈ m.options, CommandSpec.Plain identifier.toList

/-- The text of a field type; an unknown tag has none. -/
def IsFieldText (text : String) : Prop := text = "" ∨ ∃ type : FieldType, text = type.typeText

structure OptionRecord.Plain (r : OptionRecord) : Prop where
  identifier : CommandSpec.Plain r.identifier.toList
  parent : ∀ parent ∈ r.parent, parent.Plain
  fields : ∀ f ∈ r.fields, CommandSpec.Plain f.name.toList ∧ IsFieldText f.typeText

structure Plan.Plain (p : Plan) : Prop where
  imports : ∀ path ∈ p.imports, '\n' ∉ path.toList
  methods : ∀ m ∈ p.methods, m.Plain
  records : ∀ r ∈ p.records, r.Plain

/-- A field type stays on one line and is not the type of a record. -/
theorem IsFieldText.text {text : String} (h : IsFieldText text) :
    '\n' ∉ text.toList ∧ "Options".toList.isSuffixOf text.toList = false := by
  rcases h with rfl | ⟨⟨scalar, kind⟩, rfl⟩
  · decide
  · cases scalar <;> cases kind <;> decide

theorem OptionSpec.isFieldText (o : OptionSpec) : IsFieldText o.field.typeText := by
  unfold OptionSpec.field
  dsimp only
  split
  · exact Or.inr ⟨_, rfl⟩
  · exact Or.inl rfl

theorem ScalarType.importPath?_newline (t : ScalarType) (path : String)
    (h : t.importPath? = some path) : '\n' ∉ path.toList := by
  cases t <;> cases h <;> decide

/-! ## One node -/

theorem DeclaredRecord.record_plain (r : DeclaredRecord)
    (hidentifier : Plain r.identifier.toList) (hparent : ∀ parent ∈ r.parent, parent.Plain) :
    r.record.Plain := by
  refine ⟨hidentifier, hparent, List.forall_mem_map.mpr fun o _ => ?_⟩
  exact ⟨plain_fieldName o.name, o.isFieldText⟩

theorem DeclaredRecord.importPaths_newline (r : DeclaredRecord) :
    ∀ path ∈ r.importPaths, '\n' ∉ path.toList := by
  intro path hp
  obtain ⟨o, -, ho⟩ := List.mem_filterMap.mp hp
  obtain ⟨scalar, -, hs⟩ := Option.bind_eq_some_iff.mp ho
  exact scalar.importPath?_newline path hs

theorem hooks_plain (path : List String) (options description : Option String)
    (h : ∀ identifier ∈ options, Plain identifier.toList) :
    ∀ m ∈ hooks path options description, m.Plain := by
  have hbefore := plain_methodName_some path "hook_before" (by decide)
  have hafter := plain_methodName_some path "hook_after" (by decide)
  simp only [hooks, List.forall_mem_cons]
  exact ⟨⟨hbefore, h⟩, ⟨hafter, h⟩, by simp⟩

namespace Site

theorem inForce_plain (s : Site) (h : ∀ r ∈ s.inherited, r.Plain) : ∀ r ∈ s.inForce, r.Plain := by
  unfold inForce ownRecord
  split
  · exact h
  · intro r hr
    cases hr
    exact ⟨plain_nodeIdentifier s.path, plain_methodName_none s.path⟩

theorem methods_plain (s : Site) (h : ∀ r ∈ s.inherited, r.Plain) : ∀ m ∈ s.methods, m.Plain := by
  have hoptions : ∀ identifier ∈ s.inForce.map EmbeddedRecord.identifier,
      Plain identifier.toList := by
    intro identifier hi
    obtain ⟨r, hr, rfl⟩ := Option.map_eq_some_iff.mp hi
    exact (s.inForce_plain h r hr).identifier
  unfold methods
  simp only
  split
  · exact hooks_plain s.path _ _ hoptions
  · exact List.forall_mem_singleton.mpr ⟨plain_methodName_none s.path, hoptions⟩

theorem declaredRecord_plain (s : Site) (h : ∀ r ∈ s.inherited, r.Plain) :
    ∀ r ∈ s.declaredRecord, r.record.Plain := by
  intro r hr
  obtain ⟨-, hr⟩ := Option.ite_none_left_eq_some.mp hr
  cases hr
  exact DeclaredRecord.record_plain _ (plain_nodeIdentifier s.path) h

end Site

/-- What is handed down is plain on every level. -/
theorem CommandForest.inherited_plain (forest : CommandForest) (path : List String)
    (inherited : Option EmbeddedRecord) (h : ∀ r ∈ inherited, r.Plain) :
    ∀ s ∈ forest.sites path inherited, ∀ r ∈ s.inherited, r.Plain := by
  induction forest generalizing path inherited with
  | nil => simp [sites]
  | node name declaration children siblings ihc ihs =>
    let here : Site := ⟨⟨path ++ [name], declaration, children⟩, inherited⟩
    simp only [sites, List.forall_mem_cons, List.forall_mem_append]
    exact ⟨h, ihc _ here.inForce (here.inForce_plain h), ihs path inherited h⟩

/-! ## The whole document -/

namespace Document

theorem globalRecord_plain (document : Document) (config : Config) (h : config.Plain) :
    ∀ r ∈ document.globalRecord config, r.Plain := by
  intro r hr
  obtain ⟨-, hr⟩ := Option.ite_none_left_eq_some.mp hr
  cases hr
  exact ⟨h.globalOptions, plain_fieldName _⟩

theorem rootBindings_plain (document : Document) (config : Config) (h : config.Plain) :
    (∀ m ∈ (document.rootBindings config).methods, m.Plain) ∧
      ∀ r ∈ (document.rootBindings config).record, r.record.Plain := by
  constructor
  · refine hooks_plain [] _ none fun identifier hi => ?_
    obtain ⟨r, hr, rfl⟩ := Option.map_eq_some_iff.mp hi
    exact (document.globalRecord_plain config h r hr).identifier
  · intro r hr
    obtain ⟨-, hr⟩ := Option.ite_none_left_eq_some.mp hr
    cases hr
    exact DeclaredRecord.record_plain _ h.globalOptions nofun

theorem outline_plain (document : Document) (config : Config) (h : config.Plain) :
    ∀ b ∈ document.outline config, (∀ m ∈ b.methods, m.Plain) ∧ ∀ r ∈ b.record, r.record.Plain := by
  have hsites := document.commands.forest.inherited_plain [] (document.globalRecord config)
    (document.globalRecord_plain config h)
  refine List.forall_mem_cons.mpr ⟨document.rootBindings_plain config h, ?_⟩
  refine List.forall_mem_map.mpr fun s hs => ?_
  exact ⟨s.methods_plain (hsites s hs), s.declaredRecord_plain (hsites s hs)⟩

theorem importPaths_newline (document : Document) (config : Config) (h : config.Plain) :
    ∀ path ∈ document.importPaths config, '\n' ∉ path.toList := by
  have hruntime : '\n' ∉ config.runtimeText.toList := h.runtime.not_mem rfl
  refine List.forall_mem_append.mpr ⟨?_, fun path hp => ?_⟩
  · simp [hruntime]
  · obtain ⟨r, -, hr⟩ := List.mem_flatMap.mp hp
    exact r.importPaths_newline path hr

theorem topDownPlan_plain (document : Document) (config : Config) (h : config.Plain) :
    (document.topDownPlan config).Plain := by
  have hnodes := document.outline_plain config h
  refine ⟨fun path hp => ?_, fun m hm => ?_, List.forall_mem_map.mpr ?_⟩
  · have hneeded := (mem_insertNames path [] _).mp hp
    exact document.importPaths_newline config h path (by simpa using hneeded)
  · obtain ⟨b, hb, hm⟩ := List.mem_flatMap.mp hm
    exact (hnodes b hb).1 m hm
  · exact (document.forall_outline_iff config fun r => r.record.Plain).mp fun b hb =>
      (hnodes b hb).2

end Document
end CommandSpec
