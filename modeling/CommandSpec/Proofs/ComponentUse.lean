import CommandSpec.Proofs.EntryDecoding

/-! What components are good for. A reference is decoded exactly if it names a referable name, so a
component of any other name is never referred to; resolving puts a component that is named in place
of every reference to it (`Document.component_usable_iff`). Nothing keeps a component from having a
name that cannot be referred to (`slashedComponent_unusable`). -/
namespace CommandSpec
open Yaml

/-! ## Entries that are references -/

namespace Node

theorem IsString.readOptionalString {n : Node} {s : String} (h : n.IsString s) :
    n.readOptionalString = .ok (some s) := by
  rcases settle_cases h with ⟨rfl, -⟩ | ⟨t, r, rfl, hlocal, hr, hw⟩ | ⟨_, _, -, hw, -⟩ |
    ⟨_, _, -, hw, -⟩
  · rfl
  · cases r <;> cases hw
    have hpresent : scalarIsAbsent t = .ok false := by
      rw [Scalar.isAbsent_of_resolve hlocal hr]
      exact congrArg Except.ok (Bool.and_false t.isPlain)
    rw [Scalar.eq_text_of_resolve hr, Node.readOptionalString, readOptional, hpresent]
    rfl
  · cases hw
  · cases hw

theorem fieldValues_leaveOut (field : String) (es : List (Node × Node)) :
    fieldValues field (Shape.entry.leaveOut field es) = [] := by
  unfold fieldValues
  rw [List.map_eq_nil_iff, List.filter_eq_nil_iff]
  intro e he
  have hother : e.1.readFieldName.toOption ≠ some field := Shape.fieldOf?_of_mem_leaveOut he
  simpa using hother

end Node

namespace OptionEntry

/-- What is decoded to a reference is the key of a name. -/
theorem isReferenceKey_of_ofNode {n : Node} {key : String} (h : ofNode n = .ok (reference key)) :
    isReferenceKey key = true := by
  obtain ⟨es, -, h⟩ := bind_eq_ok h
  obtain ⟨⟨reference?, fields⟩, -, h⟩ := bind_eq_ok h
  obtain ⟨o, -, h⟩ := bind_eq_ok h
  have hparts : ofParts reference? o = .ok (reference key) := h
  rcases (ofParts_eq_ok_iff ..).mp hparts with ⟨-, h⟩ | ⟨name, -, hname, h⟩
  · cases h
  · cases h
    exact (isReferenceKey_referenceKey name).mpr hname

/-- An entry becomes a reference when one is set in it. -/
theorem ofNode_set_reference {name : String} (hname : IsReferable name) {key v : Node}
    (hkey : key.readFieldName = .ok referenceField) (hv : v.IsString (referenceKey name))
    (before after : List (Node × Node)) (entry : OptionEntry)
    (h : ofNode (.map (Shape.entry.leaveOut referenceField (before ++ after))) = .ok entry) :
    ofNode (.map (Shape.entry.leaveOut referenceField before ++
      (key, v) :: Shape.entry.leaveOut referenceField after)) =
        .ok (reference (referenceKey name)) := by
  refine ofNode_perm List.perm_middle.symm _ ?_
  rw [← Shape.leaveOut_append]
  obtain ⟨-, fields, o, -, hkept, ho, -⟩ := (ofNode_map_eq_ok_iff ..).mp h
  refine (ofNode_map_eq_ok_iff ..).mpr ⟨some (referenceKey name), fields, o,
    Or.inr ⟨v, ?_, hv.readOptionalString⟩, ?_, ho,
    (ofParts_eq_ok_iff ..).mpr (Or.inr ⟨name, rfl, hname, rfl⟩)⟩
  · rw [Node.fieldValues_cons_self hkey, Node.fieldValues_leaveOut]
  · have hfield : Shape.entry.fieldOf? key = some referenceField := congrArg Except.toOption hkey
    rw [Shape.leaveOut_cons_self hfield]
    exact hkept

theorem exists_reference_iff (name : String) :
    (∃ n, ofNode n = .ok (reference (referenceKey name))) ↔ IsReferable name := by
  constructor
  · rintro ⟨n, h⟩
    exact (isReferenceKey_referenceKey name).mp (isReferenceKey_of_ofNode h)
  · intro hname
    have hkey : (Node.text referenceField).readFieldName = .ok referenceField := rfl
    have hv : (Node.text (referenceKey name)).IsString (referenceKey name) := rfl
    exact ⟨_, ofNode_set_reference hname hkey hv [] [] (.inline {}) rfl⟩

end OptionEntry

/-! ## Resolving -/

/-- The same command with every option entry changed in its place. -/
def Command.mapEntries (f : OptionEntry → OptionEntry) (c : Command) : Command :=
  { toDeclaration := c.toDeclaration.mapEntries f, commands := c.commands.mapEntries f }

namespace Document

theorem nodeAt?_mapEntries (d : Document) (f : OptionEntry → OptionEntry) (path : List String)
    (command : Command) (h : d.nodeAt? path = some command) :
    (d.mapEntries f).nodeAt? path = some (command.mapEntries f) := by
  rw [nodeAt?_eq_some_iff] at h ⊢
  rcases h with ⟨rfl, rfl⟩ | hv
  · exact Or.inl ⟨rfl, rfl⟩
  · refine Or.inr ?_
    have hforest : (d.mapEntries f).commands.forest = d.commands.forest.mapEntries f := rfl
    rw [hforest, CommandForest.visits_mapEntries]
    exact List.mem_map.mpr ⟨_, hv, rfl⟩

/-- **A component can be used exactly if its name is no path.** Setting a reference to a name that
is not empty and has no slash makes a reference of every entry; to a component of another name no
entry whatever is a reference. Resolving never fails at a reference to a component, and it puts the
component in place of the reference, wherever this stands. -/
theorem component_usable_iff (d : Document) {name : String} {o : OptionSpec}
    (h : d.components.find? name = some o) :
    ((∃ n, OptionEntry.ofNode n = .ok (.reference (referenceKey name))) ↔ IsReferable name) ∧
      (IsReferable name → ∀ (key v : Node), key.readFieldName = .ok referenceField →
        v.IsString (referenceKey name) → ∀ (before after : List (Node × Node)) (e : OptionEntry),
        OptionEntry.ofNode (.map (Shape.entry.leaveOut referenceField (before ++ after))) = .ok e →
        OptionEntry.ofNode (.map (Shape.entry.leaveOut referenceField before ++
          (key, v) :: Shape.entry.leaveOut referenceField after)) =
            .ok (.reference (referenceKey name))) ∧
      d.resolve ≠ .error (referenceKey name) ∧
      ∀ d', d.resolve = .ok d' → ∀ (path : List String) (command : Command) (i : Nat),
        d.nodeAt? path = some command →
        command.options[i]? = some (.reference (referenceKey name)) →
        ∃ command' : Command, d'.nodeAt? path = some command' ∧
          command'.options[i]? = some (.inline o) := by
  have hnames : d.Names (referenceKey name) o := ⟨name, rfl, h⟩
  refine ⟨OptionEntry.exists_reference_iff name, fun hname key v hkey hv before after e he => ?_,
    fun herror => ?_, fun d' hd path command i hcommand hi => ?_⟩
  · exact OptionEntry.ofNode_set_reference hname hkey hv before after e he
  · obtain ⟨-, -, -, -, hnone⟩ := d.resolve_error _ herror
    exact hnone o hnames
  · obtain ⟨-, rfl⟩ := (d.resolve_eq_ok_iff d').mp hd
    refine ⟨_, d.nodeAt?_mapEntries _ path command hcommand, ?_⟩
    have hoptions : (command.mapEntries (OptionEntry.spellOut d.referenceTable)).options =
        command.options.map (OptionEntry.spellOut d.referenceTable) := rfl
    rw [hoptions, List.getElem?_map, hi, Option.map_some, d.spellOut_reference _ o hnames]

end Document

theorem wait_usable :
    IsReferable "Wait" ∧
      halfDefined.components.find? "Wait" = some { name := "wait", typeTag := "duration" } ∧
      Node.IsString (.text "#/components/options/Wait") (referenceKey "Wait") ∧
      OptionEntry.ofNode (.map [(.text "name", .text "a"),
          (.text "$ref", .text "#/components/options/Wait")]) =
        .ok (.reference (referenceKey "Wait")) ∧
      halfDefined.resolve ≠ .error (referenceKey "Wait") ∧
      ∃ (d' : Document) (command : Command),
        ({ halfDefined with commands := {} } : Document).resolve = .ok d' ∧
        d'.nodeAt? [] = some command ∧
        command.options[0]? = some (.inline { name := "wait", typeTag := "duration" }) := by
  have hname : IsReferable "Wait" := by decide
  have hfind : halfDefined.components.find? "Wait" =
      some { name := "wait", typeTag := "duration" } := by decide
  have hkey : Node.IsString (.text "#/components/options/Wait") (referenceKey "Wait") := rfl
  obtain ⟨-, hset, herror, -⟩ := halfDefined.component_usable_iff hfind
  obtain ⟨-, -, -, hput⟩ :=
    ({ halfDefined with commands := {} } : Document).component_usable_iff hfind
  have hresolved :
      ({ halfDefined with commands := {} } : Document).resolve.toOption.isSome = true := by
    decide +kernel
  obtain ⟨d', hd⟩ := isSome_toOption_iff.mp hresolved
  obtain ⟨command, hcommand, hoption⟩ := hput d' hd [] _ 0 rfl rfl
  exact ⟨hname, hfind, hkey,
    hset hname (.text "$ref") _ rfl hkey [(.text "name", .text "a")] [] _ rfl, herror, d', command,
    hd, hcommand, hoption⟩

/-- A component with a name like a path. -/
def slashedComponent : Node :=
  .map [(.text "components", .map [(.text "options",
    .map [(.text "a/b", .map [(.text "type", .text "int")])])])]

/-- It is decoded, but no entry is a reference to it. -/
theorem slashedComponent_unusable :
    (∃ d o, Document.ofNode slashedComponent = .ok d ∧ d.components.find? "a/b" = some o) ∧
      OptionEntry.ofNode (.map [(.text "$ref", .text (referenceKey "a/b"))]) =
        .error (.invalidReference (referenceKey "a/b")) ∧
      ¬∃ n, OptionEntry.ofNode n = .ok (.reference (referenceKey "a/b")) := by
  have hread : (Document.ofNode slashedComponent).toOption.bind
      (fun d => d.components.find? "a/b") = some { name := "a/b", typeTag := "int" } := by
    decide +kernel
  obtain ⟨d, hd, ho⟩ := Option.bind_eq_some_iff.mp hread
  refine ⟨⟨d, _, eq_ok_of_toOption hd, ho⟩, eq_error_of_failure? (by decide +kernel), ?_⟩
  rw [OptionEntry.exists_reference_iff]
  decide

end CommandSpec
