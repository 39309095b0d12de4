import CommandSpec.Proofs.DumpRoundTrip
import CommandSpec.Proofs.Loading
import CommandSpec.Yaml.Block

/-! What decoding lets through. Whatever the tree, a decoded document is well formed: its
references have the form asked for and its components are named. Resolving keeps that. So every
document at hand reads back from its dump, and a loaded one is loaded again from it. -/
namespace CommandSpec

variable {α : Type}

/-! ## Options -/

namespace OptionEntry

theorem decodable_of_ofNode (n : Node) (e : OptionEntry) (h : ofNode n = .ok e) :
    e.Decodable := by
  obtain ⟨entries, -, h⟩ := bind_eq_ok h
  obtain ⟨⟨key?, fields⟩, -, h⟩ := bind_eq_ok h
  obtain ⟨option, -, h⟩ := bind_eq_ok h
  cases key? with
  | none =>
    cases h
    trivial
  | some key =>
    simp only at h
    split at h
    · cases h
      trivial
    · split at h
      · rename_i hkey
        cases h
        exact hkey
      · cases h

theorem Decodable.named {e : OptionEntry} (h : e.Decodable) (name : String) :
    (e.named name).Decodable := by
  cases e with
  | inline o => trivial
  | reference key => exact h

end OptionEntry

theorem forall_of_readEach (read : Node → Except DecodeError α) (P : α → Prop)
    (hread : ∀ n a, read n = .ok a → P a) (nodes : List Node) (as : List α)
    (h : readEach read nodes = .ok as) : ∀ a ∈ as, P a := by
  induction nodes generalizing as with
  | nil =>
    cases h
    simp
  | cons n rest ih =>
    obtain ⟨a, ha, h⟩ := bind_eq_ok h
    obtain ⟨as', hrest, h⟩ := bind_eq_ok h
    cases h
    exact List.forall_mem_cons.mpr ⟨hread n a ha, ih as' hrest⟩

theorem decodable_of_readNamedEntries (entries : List (Node × Node)) (options : List OptionEntry)
    (h : readNamedEntries entries = .ok options) : ∀ e ∈ options, e.Decodable := by
  induction entries generalizing options with
  | nil =>
    cases h
    simp
  | cons entry rest ih =>
    obtain ⟨key, v⟩ := entry
    obtain ⟨name, -, h⟩ := bind_eq_ok h
    obtain ⟨e, he, h⟩ := bind_eq_ok h
    obtain ⟨options', hrest, h⟩ := bind_eq_ok h
    cases h
    exact List.forall_mem_cons.mpr ⟨(e.decodable_of_ofNode v he).named name, ih options' hrest⟩

theorem decodable_of_readOptionList (n : Node) (options : List OptionEntry)
    (h : readOptionList n = .ok options) : ∀ e ∈ options, e.Decodable := by
  have hnone (h : Except.ok (ε := DecodeError) [] = .ok options) : ∀ e ∈ options, e.Decodable := by
    cases h
    simp
  cases n with
  | null => exact hnone h
  | seq items => exact forall_of_readEach _ _ OptionEntry.decodable_of_ofNode items options h
  | map entries => exact decodable_of_readNamedEntries entries options h
  | scalar s =>
    unfold readOptionList at h
    simp only at h
    split at h
    · cases h
    · split at h
      · exact hnone h
      · cases h
      · cases h
  | bool b => cases h
  | int i => cases h
  | float x => cases h
  | text s => cases h
  | tagged tag content => cases h
  | fault f => cases h

/-! ## Records -/

/-- The first entry of a record is a field or is skipped. -/
theorem readFields_cons_eq_ok (fields : List String)
    (setField : String → Node → α → Except DecodeError α) (seen : List String) (a a' : α)
    (key v : Node) (rest : List (Node × Node))
    (h : readFields fields setField seen a ((key, v) :: rest) = .ok a') :
    (∃ name b, setField name v a = .ok b ∧
      readFields fields setField (name :: seen) b rest = .ok a') ∨
    readFields fields setField seen a rest = .ok a' := by
  obtain ⟨name, -, h⟩ := bind_eq_ok h
  split at h
  · split at h
    · cases h
    · obtain ⟨b, hb, h⟩ := bind_eq_ok h
      exact Or.inl ⟨name, b, hb, h⟩
  · obtain ⟨_, -, h⟩ := bind_eq_ok h
    exact Or.inr h

/-- What every field keeps, the whole record keeps. -/
theorem readFields_keeps (fields : List String)
    (setField : String → Node → α → Except DecodeError α) (P : α → Prop)
    (hset : ∀ name v a a', setField name v a = .ok a' → P a → P a') (seen : List String)
    (a a' : α) (entries : List (Node × Node))
    (h : readFields fields setField seen a entries = .ok a') (ha : P a) : P a' := by
  induction entries generalizing seen a with
  | nil =>
    cases h
    exact ha
  | cons entry rest ih =>
    rcases readFields_cons_eq_ok fields setField seen a a' entry.1 entry.2 rest h with
      ⟨name, b, hb, h⟩ | h
    · exact ih _ b h (hset name entry.2 a b hb ha)
    · exact ih seen a h ha

/-! ## Commands -/

theorem CommandForest.AllEntries.insert {P : OptionEntry → Prop} {name : String}
    {declaration : Declaration} {children : CommandForest} (forest : CommandForest)
    (hd : ∀ e ∈ declaration.options, P e) (hc : children.AllEntries P) (hf : forest.AllEntries P) :
    (forest.insert name declaration children).AllEntries P := by
  induction forest with
  | nil => exact ⟨hd, hc, trivial⟩
  | node other kept below siblings _ ih =>
    obtain ⟨hkept, hbelow, hsiblings⟩ := hf
    -- the command goes before the first one, takes its place, or goes behind it
    unfold CommandForest.insert
    split
    · exact ⟨hd, hc, hkept, hbelow, hsiblings⟩
    · split
      · exact ⟨hd, hc, hsiblings⟩
      · exact ⟨hkept, hbelow, ih hsiblings⟩

/-- Every reference at and below the command has the form that decoding asks for. -/
def Command.Decodable (c : Command) : Prop :=
  (∀ e ∈ c.options, e.Decodable) ∧ c.commands.forest.AllEntries OptionEntry.Decodable

theorem Command.decodable_nothing : ({} : Command).Decodable := ⟨by simp, trivial⟩

theorem Declaration.decodable_of_setField (field : String) (v : Node) (d d' : Declaration)
    (h : d.setField field v = .ok d') (hd : ∀ e ∈ d.options, e.Decodable) :
    ∀ e ∈ d'.options, e.Decodable := by
  unfold setField at h
  split at h
  case h_3 =>
    obtain ⟨options, ho, h⟩ := bind_eq_ok h
    cases h
    exact decodable_of_readOptionList v options ho
  all_goals
    obtain ⟨_, -, h⟩ := bind_eq_ok h
    cases h
    exact hd

mutual

theorem Commands.decodable_of_ofNode (n : Node) (c : Commands) (h : Commands.ofNode n = .ok c) :
    c.forest.AllEntries OptionEntry.Decodable := by
  match n with
  | .null =>
    cases h
    trivial
  | .map entries => exact Commands.decodable_of_ofEntries entries {} c h trivial
  | .tagged _ content => exact Commands.decodable_of_ofNode content c h
  | .scalar s =>
    obtain ⟨-, -, rfl⟩ := map_eq_ok h
    trivial
  | .bool _ | .int _ | .float _ | .text _ | .seq _ | .fault _ => cases h

theorem Commands.decodable_of_ofEntries (entries : List (Node × Node)) (c c' : Commands)
    (h : Commands.ofEntries c entries = .ok c')
    (hc : c.forest.AllEntries OptionEntry.Decodable) :
    c'.forest.AllEntries OptionEntry.Decodable := by
  match entries with
  | [] =>
    cases h
    exact hc
  | (key, body) :: rest =>
    obtain ⟨name, -, h⟩ := bind_eq_ok h
    obtain ⟨command, hbody, h⟩ := bind_eq_ok h
    obtain ⟨hoptions, hbelow⟩ := Command.decodable_of_ofBody body command hbody
    exact Commands.decodable_of_ofEntries rest (c.insert name command) c' h
      (.insert c.forest hoptions hbelow hc)

theorem Command.decodable_of_ofBody (n : Node) (c : Command) (h : Command.ofBody n = .ok c) :
    c.Decodable := by
  match n with
  | .null =>
    cases h
    exact Command.decodable_nothing
  | .map fields =>
    exact Command.decodable_of_readFields fields [] {} c
      ((Command.ofFields_eq [] {} fields).symm.trans h) Command.decodable_nothing
  | .tagged _ content => exact Command.decodable_of_ofBody content c h
  | .scalar s =>
    obtain ⟨-, -, rfl⟩ := map_eq_ok h
    exact Command.decodable_nothing
  | .bool _ | .int _ | .float _ | .text _ | .seq _ | .fault _ => cases h

theorem Command.decodable_of_readFields (fields : List (Node × Node)) (seen : List String)
    (c c' : Command)
    (h : readFields Command.fieldNames Command.setField seen c fields = .ok c')
    (hc : c.Decodable) : c'.Decodable := by
  match fields with
  | [] =>
    cases h
    exact hc
  | (key, v) :: rest =>
    rcases readFields_cons_eq_ok _ _ seen c c' key v rest h with ⟨name, b, hb, h⟩ | h
    · refine Command.decodable_of_readFields rest (name :: seen) b c' h ?_
      -- one field holds the sub-commands; all others are of the declaration
      unfold Command.setField at hb
      split at hb
      · obtain ⟨commands, hcommands, hb⟩ := bind_eq_ok hb
        cases hb
        exact ⟨hc.1, Commands.decodable_of_ofNode v commands hcommands⟩
      · obtain ⟨d, hd, hb⟩ := bind_eq_ok hb
        cases hb
        exact ⟨c.toDeclaration.decodable_of_setField name v d hd hc.1, hc.2⟩
    · exact Command.decodable_of_readFields rest seen c c' h hc

end

/-! ## Components -/

theorem isNamed_named (name : String) (o : OptionSpec) : IsNamed (name, o.named name) := by
  unfold IsNamed OptionSpec.named
  by_cases h : o.name.isEmpty = true
  · simp [h]
  · simp [h]

theorem isNamed_of_componentsOf (entries : List (String × OptionEntry)) (m m' : NameMap OptionSpec)
    (h : componentsOf m entries = .ok m') (hm : ∀ c ∈ m.entries, IsNamed c) :
    ∀ c ∈ m'.entries, IsNamed c := by
  induction entries generalizing m with
  | nil =>
    cases h
    exact hm
  | cons entry rest ih =>
    obtain ⟨name, o | key⟩ := entry
    · refine ih (m.insert name (o.named name)) h fun c hc => ?_
      rcases mem_insertEntry hc with rfl | hc
      · exact isNamed_named name o
      · exact hm c hc
    · cases h

theorem isNamed_of_readNamedOptions (n : Node) (m : NameMap OptionSpec)
    (h : readNamedOptions n = .ok m) : ∀ c ∈ m.entries, IsNamed c := by
  have hempty : ∀ c ∈ (NameMap.empty : NameMap OptionSpec).entries, IsNamed c := by
    simp [NameMap.empty]
  obtain ⟨n?, -, h⟩ := bind_eq_ok h
  cases n? with
  | none =>
    cases h
    exact hempty
  | some n =>
    obtain ⟨entries, -, h⟩ := bind_eq_ok h
    obtain ⟨named, -, h⟩ := bind_eq_ok h
    exact isNamed_of_componentsOf named.entries .empty m h hempty

theorem isNamed_of_readComponents (n : Node) (m : NameMap OptionSpec)
    (h : readComponents n = .ok m) : ∀ c ∈ m.entries, IsNamed c := by
  obtain ⟨entries, -, h⟩ := bind_eq_ok h
  refine readFields_keeps _ _ (fun m => ∀ c ∈ m.entries, IsNamed c) ?_ _ _ m entries h
    (by simp [NameMap.empty])
  exact fun _ v _ m' hm _ => isNamed_of_readNamedOptions v m' hm

/-! ## Documents -/

namespace Document

theorem wellFormed_nothing : ({} : Document).WellFormed :=
  ⟨by simp, trivial, by simp [NameMap.empty]⟩

theorem wellFormed_of_setField (field : String) (v : Node) (d d' : Document)
    (h : setField field v d = .ok d') (hd : d.WellFormed) : d'.WellFormed := by
  obtain ⟨hoptions, hcommands, hcomponents⟩ := hd
  unfold setField at h
  split at h
  · obtain ⟨v?, -, h⟩ := bind_eq_ok h
    cases v? with
    | none =>
      cases h
      exact ⟨hoptions, hcommands, hcomponents⟩
    | some v =>
      obtain ⟨_, -, h⟩ := bind_eq_ok h
      cases h
      exact ⟨hoptions, hcommands, hcomponents⟩
  · obtain ⟨options, ho, h⟩ := bind_eq_ok h
    cases h
    exact ⟨decodable_of_readOptionList v options ho, hcommands, hcomponents⟩
  · obtain ⟨commands, hc, h⟩ := bind_eq_ok h
    cases h
    exact ⟨hoptions, Commands.decodable_of_ofNode v commands hc, hcomponents⟩
  · obtain ⟨v?, -, h⟩ := bind_eq_ok h
    cases v? with
    | none =>
      cases h
      exact ⟨hoptions, hcommands, by simp [NameMap.empty]⟩
    | some v =>
      obtain ⟨components, hc, h⟩ := bind_eq_ok h
      cases h
      exact ⟨hoptions, hcommands, isNamed_of_readComponents v components hc⟩
  all_goals
    obtain ⟨_, -, h⟩ := bind_eq_ok h
    cases h
    exact ⟨hoptions, hcommands, hcomponents⟩

theorem wellFormed_of_ofNode (n : Node) (d : Document) (h : ofNode n = .ok d) :
    d.WellFormed := by
  obtain ⟨entries, -, h⟩ := bind_eq_ok h
  exact readFields_keeps fieldNames setField WellFormed wellFormed_of_setField [] {} d entries h
    wellFormed_nothing

theorem wellFormed_of_ofText (text : String) (d : Document) (h : ofText text = .ok d) :
    d.WellFormed := by
  unfold ofText at h
  split at h
  · cases h
    exact wellFormed_nothing
  · obtain ⟨d', hd, h⟩ := bind_eq_ok h
    split at h
    · cases h
    · cases h
      exact wellFormed_of_ofNode _ d hd

theorem wellFormed_of_ofReader (input : Except String ByteArray) (d : Document)
    (h : ofReader input = .ok d) : d.WellFormed := by
  obtain ⟨bytes, -, h⟩ := bind_eq_ok h
  obtain ⟨text, -, h⟩ := bind_eq_ok h
  exact wellFormed_of_ofText text d ((mapError_eq_ok_iff _ _ _).mp h)

/-! ### Resolving -/

end Document

theorem CommandForest.AllEntries.mapEntries {P : OptionEntry → Prop}
    {f : OptionEntry → OptionEntry} (forest : CommandForest) (hf : ∀ e, P e → P (f e))
    (h : forest.AllEntries P) : (forest.mapEntries f).AllEntries P := by
  induction forest with
  | nil => trivial
  | node name declaration children siblings ihc ihs =>
    obtain ⟨hoptions, hchildren, hsiblings⟩ := h
    refine ⟨List.forall_mem_map.mpr fun e he => hf e (hoptions e he), ihc hchildren, ihs hsiblings⟩

theorem OptionEntry.Decodable.spellOut {e : OptionEntry} (h : e.Decodable)
    (table : ReferenceTable) : (e.spellOut table).Decodable := by
  cases e with
  | inline o => trivial
  | reference key =>
    simp only [OptionEntry.spellOut]
    split
    · trivial
    · exact h

namespace Document

theorem WellFormed.of_resolve {d d' : Document} (h : d.WellFormed) (hr : d.resolve = .ok d') :
    d'.WellFormed := by
  obtain ⟨-, rfl⟩ := (d.resolve_eq_ok_iff d').mp hr
  have hspell (e : OptionEntry) (he : e.Decodable) := he.spellOut d.referenceTable
  exact ⟨List.forall_mem_map.mpr fun e he => hspell e (h.options e he),
    .mapEntries _ hspell h.commands, h.components⟩

/-! ## Dumps -/

/-- The document comes from decoding a tree or what a reader gives, resolved or not. -/
inductive Decoded : Document → Prop
  | ofNode (n : Node) (d : Document) (h : ofNode n = .ok d) : Decoded d
  | ofReader (input : Except String ByteArray) (d : Document) (h : ofReader input = .ok d) :
    Decoded d
  | resolved (d d' : Document) (hd : Decoded d) (h : d.resolve = .ok d') : Decoded d'

theorem Decoded.wellFormed {d : Document} (h : d.Decoded) : d.WellFormed := by
  induction h with
  | ofNode n d h => exact wellFormed_of_ofNode n d h
  | ofReader input d h => exact wellFormed_of_ofReader input d h
  | resolved d d' _ h ih => exact ih.of_resolve h

theorem decoded_of_parseReader (input : Except String ByteArray) (d : Document)
    (h : parseReader input = .ok d) : d.Decoded := by
  rw [parseReader_eq] at h
  obtain ⟨d', hd, h⟩ := bind_eq_ok h
  exact .resolved d' d (.ofReader input d' hd) ((d'.complete_eq_ok_iff d).mp h).2

/-- **Decoding undoes dumping.** A document that was decoded from anything, resolved or not, is
decoded again from the tree it is written as. A loaded document needs no more checks or
resolving, so any text that decodes like its tree is loaded as the same document. -/
theorem dump_reads_back :
    (∀ d, Decoded d → ofNode d.toNode = .ok d) ∧
    ∀ input d, parseReader input = .ok d →
      (ofNode d.toNode).mapError .decode >>= complete = .ok d ∧
      ∀ dumped, ofText dumped = ofNode d.toNode → parse dumped = .ok d := by
  have hback (d : Document) (h : d.Decoded) : ofNode d.toNode = .ok d :=
    d.ofNode_toNode h.wellFormed
  refine ⟨hback, fun input d h => ?_⟩
  have htree : ofNode d.toNode = .ok d := hback d (decoded_of_parseReader input d h)
  have hcomplete : d.complete = .ok d := by
    rw [parseReader_eq] at h
    obtain ⟨d', -, h⟩ := bind_eq_ok h
    exact d'.complete_of_complete d h
  refine ⟨?_, fun dumped hdumped => ?_⟩
  · rw [htree]
    exact hcomplete
  · unfold parse
    rw [hdumped, htree]
    exact hcomplete

def waitingText : String :=
  "options:\n- $ref: '#/components/options/Wait'\n" ++
  "components:\n  options:\n    Wait:\n      default: 5\n"

/-- An option spelled out from a component, which is named after its key. -/
def waiting : Document where
  options := [.inline { name := "Wait", default := some "5" }]
  components := NameMap.insert .empty "Wait" { name := "Wait", default := some "5" }

theorem waiting_dump_reads_back :
    parseReader (.ok waitingText.toUTF8) = .ok waiting ∧
      parse waiting.toNode.toYaml = .ok waiting := by
  have hparse : parseReader (.ok waitingText.toUTF8) = .ok waiting := by
    rw [parseReader_eq, ofReader_toUTF8]
    exact eq_ok_of_toOption (by decide +kernel)
  have hyaml : ofText waiting.toNode.toYaml = .ok waiting := eq_ok_of_toOption (by decide +kernel)
  obtain ⟨hback, hload⟩ := dump_reads_back
  have htree : ofNode waiting.toNode = .ok waiting :=
    hback waiting (decoded_of_parseReader _ waiting hparse)
  obtain ⟨-, hdumped⟩ := hload _ waiting hparse
  exact ⟨hparse, hdumped _ (hyaml.trans htree.symm)⟩

end Document
end CommandSpec
