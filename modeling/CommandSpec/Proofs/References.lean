import CommandSpec.Proofs.Runs
import CommandSpec.Proofs.Visits
import CommandSpec.Spec.Resolve

/-! References and the components they name. Resolving is one run over the references of a
document in walk order: it stops at the first that names no component, and if there is none it
spells every reference out where it stands (`Document.resolve_settles`). -/
namespace CommandSpec

/-! ## Keys -/

/-- A name that a reference can have: it is not empty, and no path. -/
def IsReferable (name : String) : Prop := name ≠ "" ∧ '/' ∉ name.toList

instance (name : String) : Decidable (IsReferable name) := inferInstanceAs (Decidable (_ ∧ _))

theorem referenceKey_inj (name other : String) :
    referenceKey name = referenceKey other ↔ name = other := by
  unfold referenceKey
  exact String.append_right_inj _

theorem isReferenceKey_iff (key : String) :
    isReferenceKey key = true ↔ ∃ name, IsReferable name ∧ key = referenceKey name := by
  unfold isReferenceKey referenceKey
  simp only [Bool.and_eq_true, Bool.not_eq_true', List.isPrefixOf_iff_prefix]
  constructor
  · rintro ⟨⟨⟨rest, hrest⟩, hne⟩, hslash⟩
    rw [← hrest, List.drop_left] at hne hslash
    refine ⟨String.ofList rest, ⟨fun h => ?_, by simpa using hslash⟩, ?_⟩
    · rw [String.ofList_eq_empty_iff] at h
      simp [h] at hne
    · rw [← String.toList_inj, ← hrest]
      simp
  · rintro ⟨name, ⟨hne, hslash⟩, rfl⟩
    rw [String.toList_append, List.drop_left]
    exact ⟨⟨List.prefix_append .., by simpa using hne⟩, by simpa using hslash⟩

theorem isReferenceKey_referenceKey (name : String) :
    isReferenceKey (referenceKey name) = true ↔ IsReferable name := by
  rw [isReferenceKey_iff]
  constructor
  · rintro ⟨other, hother, hkey⟩
    obtain rfl := (referenceKey_inj ..).mp hkey
    exact hother
  · intro hname
    exact ⟨name, hname, rfl⟩

/-! ## The entries of a document -/

/-- All option entries: the document's own, then those of the commands in walk order. -/
def Document.entries (d : Document) : List OptionEntry :=
  d.options ++ (d.commands.forest.visits []).flatMap fun v => v.declaration.options

/-- The keys of all references, in the order in which they are resolved. -/
def Document.references (d : Document) : List String := d.entries.filterMap OptionEntry.reference?

/-- The key is that of a component, which is `o`. -/
def Document.Names (d : Document) (key : String) (o : OptionSpec) : Prop :=
  ∃ name, key = referenceKey name ∧ d.components.find? name = some o

theorem Document.mem_entries_iff (d : Document) (e : OptionEntry) :
    e ∈ d.entries ↔ ∃ path command, d.nodeAt? path = some command ∧ e ∈ command.options := by
  unfold entries
  rw [List.mem_append, List.mem_flatMap]
  constructor
  · rintro (h | ⟨v, hv, h⟩)
    · exact ⟨[], d.root, rfl, h⟩
    · obtain ⟨command, hc, hn⟩ := d.nodeAt?_of_mem_visits v hv
      refine ⟨v.path, command, hn, ?_⟩
      rw [hc] at h
      exact h
  · rintro ⟨path, command, hn, h⟩
    rcases (d.nodeAt?_eq_some_iff path command).mp hn with ⟨-, rfl⟩ | hv
    · exact Or.inl h
    · exact Or.inr ⟨_, hv, h⟩

theorem Document.references_eq_nil_iff (d : Document) :
    d.references = [] ↔ ∀ e ∈ d.entries, e.isReference = false := by
  unfold references OptionEntry.isReference
  rw [List.filterMap_eq_nil_iff]
  simp

/-! ## Changing every entry -/

def Declaration.mapEntries (f : OptionEntry → OptionEntry) (d : Declaration) : Declaration :=
  { d with options := d.options.map f }

namespace CommandForest

/-- The same tree with every option entry changed in its place. -/
def mapEntries (f : OptionEntry → OptionEntry) : CommandForest → CommandForest
  | nil => nil
  | node name declaration children siblings =>
    node name (declaration.mapEntries f) (children.mapEntries f) (siblings.mapEntries f)

/-- A change that leaves every command its name keeps the order. -/
theorem Ordered.of_names {f : CommandForest → CommandForest} (hnil : f nil = nil)
    (hnode : ∀ name declaration children siblings, ∃ changed,
      f (node name declaration children siblings) = node name changed (f children) (f siblings))
    (forest : CommandForest) (h : forest.Ordered) : (f forest).Ordered := by
  induction forest with
  | nil =>
    rw [hnil]
    trivial
  | node name declaration children siblings ihc ihs =>
    obtain ⟨habove, hchildren, hsiblings⟩ := h
    obtain ⟨changed, hchanged⟩ := hnode name declaration children siblings
    rw [hchanged]
    refine ⟨?_, ihc hchildren, ihs hsiblings⟩
    cases siblings with
    | nil =>
      rw [hnil]
      trivial
    | node other kept below more =>
      obtain ⟨_, hother⟩ := hnode other kept below more
      rw [hother]
      exact habove

theorem Ordered.mapEntries (f : OptionEntry → OptionEntry) (forest : CommandForest)
    (h : forest.Ordered) : (forest.mapEntries f).Ordered :=
  Ordered.of_names rfl (fun _ _ _ _ => ⟨_, rfl⟩) forest h

theorem isEmpty_mapEntries (f : OptionEntry → OptionEntry) (forest : CommandForest) :
    (forest.mapEntries f).isEmpty = forest.isEmpty := by
  cases forest <;> rfl

theorem visits_mapEntries (f : OptionEntry → OptionEntry) (forest : CommandForest)
    (path : List String) :
    (forest.mapEntries f).visits path = (forest.visits path).map fun v =>
      ⟨v.path, v.declaration.mapEntries f, v.children.mapEntries f⟩ := by
  induction forest generalizing path with
  | nil => rfl
  | node name declaration children siblings ihc ihs =>
    simp only [mapEntries, visits, ihc, ihs, List.map_cons, List.map_append]

theorem mapEntries_eq_self (f : OptionEntry → OptionEntry) (forest : CommandForest)
    (path : List String)
    (h : ∀ v ∈ forest.visits path, ∀ e ∈ v.declaration.options, f e = e) :
    forest.mapEntries f = forest := by
  induction forest generalizing path with
  | nil => rfl
  | node name declaration children siblings ihc ihs =>
    simp only [visits, List.forall_mem_cons, List.forall_mem_append] at h
    obtain ⟨hhere, hchildren, hsiblings⟩ := h
    have hoptions : declaration.options.map f = declaration.options := by
      rw [List.map_congr_left hhere, List.map_id']
    rw [mapEntries, ihc _ hchildren, ihs _ hsiblings, Declaration.mapEntries, hoptions]

end CommandForest

def Commands.mapEntries (f : OptionEntry → OptionEntry) (c : Commands) : Commands :=
  ⟨c.forest.mapEntries f, c.ordered.mapEntries f⟩

/-- The same document with every option entry changed in its place. -/
def Document.mapEntries (f : OptionEntry → OptionEntry) (d : Document) : Document :=
  { d with options := d.options.map f, commands := d.commands.mapEntries f }

theorem Document.entries_mapEntries (f : OptionEntry → OptionEntry) (d : Document) :
    (d.mapEntries f).entries = d.entries.map f := by
  simp only [entries, mapEntries, Commands.mapEntries, CommandForest.visits_mapEntries,
    Declaration.mapEntries, List.flatMap_map, List.map_append, List.map_flatMap]

/-! ## One run -/

/-- The entry spelled out if it is a reference with a component. -/
def OptionEntry.spellOut (table : ReferenceTable) : OptionEntry → OptionEntry
  | inline o => inline o
  | reference key =>
    match table.lookup key with
    | some o => inline o
    | none => reference key

/-- A run over the references `keys`: it gives `a` if all of them are in the table, and
otherwise fails with the first that is not. -/
def ReferenceTable.Settles (table : ReferenceTable) (keys : List String)
    (run : Except String α) (a : α) : Prop :=
  match run with
  | .ok b => b = a ∧ ∀ key ∈ keys, (table.lookup key).isSome = true
  | .error key => ∃ before after, keys = before ++ key :: after ∧
      (∀ k ∈ before, (table.lookup k).isSome = true) ∧ table.lookup key = none

namespace ReferenceTable

/-- Runs one after the other. -/
theorem Settles.bind {table : ReferenceTable} {keys more : List String} {run : Except String α}
    {a : α} {next : α → Except String β} {b : β} (h : table.Settles keys run a)
    (hn : table.Settles more (next a) b) : table.Settles (keys ++ more) (run >>= next) b := by
  cases run with
  | error key =>
    obtain ⟨before, after, rfl, hbefore, hkey⟩ := h
    exact ⟨before, after ++ more, by simp, hbefore, hkey⟩
  | ok a' =>
    obtain ⟨rfl, hkeys⟩ := h
    rw [ok_bind]
    unfold Settles at hn ⊢
    cases hr : next a' with
    | ok b' =>
      rw [hr] at hn
      exact ⟨hn.1, List.forall_mem_append.mpr ⟨hkeys, hn.2⟩⟩
    | error key =>
      rw [hr] at hn
      obtain ⟨before, after, rfl, hbefore, hkey⟩ := hn
      exact ⟨keys ++ before, after, by simp, List.forall_mem_append.mpr ⟨hkeys, hbefore⟩, hkey⟩

theorem settles_nothing (table : ReferenceTable) (a : α) :
    table.Settles [] (.ok a) a := ⟨rfl, by simp⟩

/-- A last step that cannot fail. -/
theorem Settles.map {table : ReferenceTable} {keys : List String} {run : Except String α} {a : α}
    (h : table.Settles keys run a) (f : α → β) :
    table.Settles keys (run >>= fun a => pure (f a)) (f a) := by
  cases run with
  | error key => exact h
  | ok a' => exact ⟨congrArg f h.1, h.2⟩

end ReferenceTable

theorem OptionEntry.resolve_settles (table : ReferenceTable) (e : OptionEntry) :
    table.Settles e.reference?.toList (e.resolve table) (e.spellOut table) := by
  cases e with
  | inline o => exact table.settles_nothing _
  | reference key =>
    cases h : table.lookup key with
    | some o =>
      have hr : (reference key).resolve table = .ok (inline o) := by simp only [resolve, h]
      have hs : (reference key).spellOut table = inline o := by simp only [spellOut, h]
      rw [hr, hs]
      exact ⟨rfl, List.forall_mem_singleton.mpr (Option.isSome_of_eq_some h)⟩
    | none =>
      have hr : (reference key).resolve table = .error key := by simp only [resolve, h]
      rw [hr]
      exact ⟨[], [], rfl, by simp, h⟩

theorem resolveEntries_settles (table : ReferenceTable) (options : List OptionEntry) :
    table.Settles (options.filterMap OptionEntry.reference?) (resolveEntries table options)
      (options.map (OptionEntry.spellOut table)) := by
  induction options with
  | nil => exact table.settles_nothing _
  | cons e rest ih =>
    have hkeys : (e :: rest).filterMap OptionEntry.reference? =
        e.reference?.toList ++ rest.filterMap OptionEntry.reference? := by
      cases e <;> rfl
    rw [hkeys]
    exact (e.resolve_settles table).bind (ih.map fun rest => e.spellOut table :: rest)

theorem Declaration.resolve_settles (table : ReferenceTable) (d : Declaration) :
    table.Settles (d.options.filterMap OptionEntry.reference?) (d.resolve table)
      (d.mapEntries (OptionEntry.spellOut table)) :=
  (resolveEntries_settles table d.options).map fun options => ({ d with options } : Declaration)

theorem CommandForest.traverse_settles (table : ReferenceTable) (forest : CommandForest)
    (path : List String) :
    table.Settles (((forest.visits path).flatMap fun v => v.declaration.options).filterMap
      OptionEntry.reference?) (forest.traverse (·.resolve table))
      (forest.mapEntries (OptionEntry.spellOut table)) := by
  induction forest generalizing path with
  | nil => exact table.settles_nothing _
  | node name declaration children siblings ihc ihs =>
    simp only [visits, List.flatMap_cons, List.flatMap_append, List.filterMap_append]
    exact (declaration.resolve_settles table).bind <| (ihc _).bind <| (ihs path).map fun siblings =>
      node name (declaration.mapEntries _) (children.mapEntries _) siblings

theorem Commands.traverse_settles (table : ReferenceTable) (c : Commands) :
    table.Settles (((c.forest.visits []).flatMap fun v => v.declaration.options).filterMap
      OptionEntry.reference?) (c.traverse (·.resolve table))
      (c.mapEntries (OptionEntry.spellOut table)) := by
  have h := c.forest.traverse_settles table []
  unfold traverse
  split
  · rename_i forest hf
    rw [hf] at h
    obtain ⟨rfl, hkeys⟩ := h
    exact ⟨rfl, hkeys⟩
  · rename_i key hf
    rw [hf] at h
    exact h

/-- **Resolving is one run** over all references of the document. -/
theorem Document.resolve_settles (d : Document) :
    d.referenceTable.Settles d.references d.resolve
      (d.mapEntries (OptionEntry.spellOut d.referenceTable)) := by
  unfold references entries
  rw [List.filterMap_append]
  exact (resolveEntries_settles d.referenceTable d.options).bind <|
    (d.commands.traverse_settles d.referenceTable).map fun commands =>
      ({ d with options := d.options.map (OptionEntry.spellOut d.referenceTable), commands } :
        Document)

/-! ## The table -/

/-- The table holds the components under their keys, and nothing else. -/
theorem Document.lookup_referenceTable_iff (d : Document) (key : String) (o : OptionSpec) :
    d.referenceTable.lookup key = some o ↔ d.Names key o := by
  unfold referenceTable Names NameMap.find?
  induction d.components.entries with
  | nil => simp
  | cons head rest ih =>
    obtain ⟨name, option⟩ := head
    rw [List.map_cons, List.lookup_cons]
    by_cases h : key = referenceKey name
    · subst h
      simp [referenceKey_inj]
    · have hkey : (key == referenceKey name) = false := by simp [h]
      simp only [hkey, ih]
      refine exists_congr fun other => and_congr_right fun ho => ?_
      have hother : (other == name) = false := by
        rw [beq_eq_false_iff_ne]
        rintro rfl
        exact h ho
      rw [List.lookup_cons, hother]

theorem Document.isSome_lookup_iff (d : Document) (key : String) :
    (d.referenceTable.lookup key).isSome = true ↔ ∃ o, d.Names key o := by
  rw [Option.isSome_iff_exists]
  exact exists_congr fun o => d.lookup_referenceTable_iff key o

namespace Document

theorem resolve_eq_ok_iff (d d' : Document) :
    d.resolve = .ok d' ↔
      (∀ key ∈ d.references, ∃ o, d.Names key o) ∧
        d' = d.mapEntries (OptionEntry.spellOut d.referenceTable) := by
  have h := d.resolve_settles
  unfold ReferenceTable.Settles at h
  cases hr : d.resolve with
  | ok b =>
    rw [hr] at h
    obtain ⟨rfl, hkeys⟩ := h
    have hnamed : ∀ key ∈ d.references, ∃ o, d.Names key o :=
      fun key hk => (d.isSome_lookup_iff key).mp (hkeys key hk)
    exact ⟨fun h => ⟨hnamed, (Except.ok.inj h).symm⟩, fun h => congrArg Except.ok h.2.symm⟩
  | error key =>
    rw [hr] at h
    obtain ⟨before, after, hsplit, -, hkey⟩ := h
    -- a component named by the key would have been in the table
    refine iff_of_false nofun fun hnamed => ?_
    obtain ⟨o, ho⟩ := hnamed.1 key (by simp [hsplit])
    rw [(d.lookup_referenceTable_iff key o).mpr ho] at hkey
    cases hkey

/-- A failure names the first reference without a component. -/
theorem resolve_error (d : Document) (key : String) (h : d.resolve = .error key) :
    ∃ before after, d.references = before ++ key :: after ∧
      (∀ k ∈ before, ∃ o, d.Names k o) ∧ ∀ o, ¬d.Names key o := by
  have hs := d.resolve_settles
  rw [h] at hs
  obtain ⟨before, after, hsplit, hbefore, hkey⟩ := hs
  refine ⟨before, after, hsplit, fun k hk => (d.isSome_lookup_iff k).mp (hbefore k hk),
    fun o ho => ?_⟩
  rw [(d.lookup_referenceTable_iff key o).mpr ho] at hkey
  cases hkey

theorem mapEntries_eq_self (d : Document) (f : OptionEntry → OptionEntry)
    (h : ∀ e ∈ d.entries, f e = e) : d.mapEntries f = d := by
  obtain ⟨hown, hbelow⟩ := List.forall_mem_append.mp h
  have hoptions : d.options.map f = d.options := by
    rw [List.map_congr_left hown, List.map_id']
  have hforest : d.commands.forest.mapEntries f = d.commands.forest :=
    CommandForest.mapEntries_eq_self f _ [] fun v hv e he =>
      hbelow e (List.mem_flatMap.mpr ⟨v, hv, he⟩)
  have hcommands : d.commands.mapEntries f = d.commands := by
    unfold Commands.mapEntries
    congr 1
  rw [mapEntries, hoptions, hcommands]

theorem resolve_of_references_nil (d : Document) (h : d.references = []) :
    d.resolve = .ok d := by
  refine (d.resolve_eq_ok_iff d).mpr ⟨by simp [h], (d.mapEntries_eq_self _ fun e he => ?_).symm⟩
  have hinline := d.references_eq_nil_iff.mp h e he
  cases e with
  | inline o => rfl
  | reference key => cases hinline

/-- A named reference is spelled out as the component. -/
theorem spellOut_reference (d : Document) (key : String) (o : OptionSpec) (h : d.Names key o) :
    (OptionEntry.reference key).spellOut d.referenceTable = .inline o := by
  simp only [OptionEntry.spellOut, (d.lookup_referenceTable_iff key o).mpr h]

/-- No reference is left. -/
theorem references_of_resolve (d d' : Document) (h : d.resolve = .ok d') :
    d'.references = [] := by
  obtain ⟨hnamed, rfl⟩ := (d.resolve_eq_ok_iff d').mp h
  rw [references_eq_nil_iff, entries_mapEntries]
  refine List.forall_mem_map.mpr fun e he => ?_
  cases e with
  | inline o => rfl
  | reference key =>
    obtain ⟨o, ho⟩ := hnamed key (List.mem_filterMap.mpr ⟨_, he, rfl⟩)
    rw [d.spellOut_reference key o ho]
    rfl

/-- **Resolving spells out the references that name components.** It succeeds exactly when all
of them do; then every reference is replaced in its place by the component it names, and nothing
else changes. Otherwise the error is the first in walk order that names none. -/
theorem resolve_spells_out (d : Document) :
    ((∃ d', d.resolve = .ok d') ↔ ∀ key ∈ d.references, ∃ o, d.Names key o) ∧
    (∀ d', d.resolve = .ok d' →
      (∃ spell : OptionEntry → OptionEntry, (∀ o, spell (.inline o) = .inline o) ∧
        (∀ key ∈ d.references, ∃ o, d.Names key o ∧ spell (.reference key) = .inline o) ∧
        d' = d.mapEntries spell) ∧
      d'.references = [] ∧ d'.resolve = .ok d') ∧
    ∀ key, d.resolve = .error key → ∃ before after, d.references = before ++ key :: after ∧
      (∀ k ∈ before, ∃ o, d.Names k o) ∧ ∀ o, ¬d.Names key o := by
  refine ⟨⟨?_, fun h => ⟨_, (d.resolve_eq_ok_iff _).mpr ⟨h, rfl⟩⟩⟩, fun d' h => ⟨?_, ?_, ?_⟩,
    d.resolve_error⟩
  · rintro ⟨d', h⟩
    exact ((d.resolve_eq_ok_iff d').mp h).1
  · obtain ⟨hnamed, hd⟩ := (d.resolve_eq_ok_iff d').mp h
    refine ⟨OptionEntry.spellOut d.referenceTable, fun o => rfl, fun key hk => ?_, hd⟩
    obtain ⟨o, ho⟩ := hnamed key hk
    exact ⟨o, ho, d.spellOut_reference key o ho⟩
  · exact d.references_of_resolve d' h
  · exact d'.resolve_of_references_nil (d.references_of_resolve d' h)

end Document

/-- A component used on two levels. Below `a`, references to `Gone` and `Lost` name nothing. -/
def halfDefined : Document where
  options := [.reference (referenceKey "Wait")]
  components := NameMap.insert .empty "Wait" { name := "wait", typeTag := "duration" }
  commands := (({} : Commands).insert "b" { options := [.reference "#/nowhere"] }).insert "a"
    { options := [.inline { name := "port", typeTag := "int" }, .reference (referenceKey "Wait"),
        .reference (referenceKey "Gone")]
      commands := ({} : Commands).insert "c" { options := [.reference (referenceKey "Lost")] } }

theorem halfDefined_names_gone :
    halfDefined.references = [referenceKey "Wait", referenceKey "Wait", referenceKey "Gone",
        referenceKey "Lost", "#/nowhere"] ∧
      (∃ before after, halfDefined.references = before ++ referenceKey "Gone" :: after ∧
        (∀ k ∈ before, ∃ o, halfDefined.Names k o) ∧
        ∀ o, ¬halfDefined.Names (referenceKey "Gone") o) ∧
      ∃ d', ({ halfDefined with commands := {} } : Document).resolve = .ok d' ∧
        d'.references = [] ∧ d'.resolve = .ok d' := by
  have herror : halfDefined.resolve = .error (referenceKey "Gone") :=
    eq_error_of_failure? (by decide +kernel)
  obtain ⟨-, -, hfirst⟩ := halfDefined.resolve_spells_out
  obtain ⟨hiff, hspelled, -⟩ := ({ halfDefined with commands := {} } : Document).resolve_spells_out
  have hnamed : ∀ key ∈ ({ halfDefined with commands := {} } : Document).references,
      ∃ o, ({ halfDefined with commands := {} } : Document).Names key o := by
    intro key hk
    obtain rfl : key = referenceKey "Wait" := List.mem_singleton.mp hk
    exact ⟨{ name := "wait", typeTag := "duration" }, "Wait", rfl, rfl⟩
  obtain ⟨d', hd⟩ := hiff.mpr hnamed
  obtain ⟨-, hnone, hagain⟩ := hspelled d' hd
  exact ⟨by decide +kernel, hfirst _ herror, d', hd, hnone, hagain⟩

end CommandSpec
