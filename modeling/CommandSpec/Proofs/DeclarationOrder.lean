import CommandSpec.Bindings.Generate
import CommandSpec.Proofs.FieldOrder
import CommandSpec.Proofs.NamedEntries
import Mathlib.Logic.Relation

/-! Documents in which the entries of maps stand in another order. Records, commands and named
options are read alike in every order (`Shape.read_perm`), those that are collected first among
them; the map form of an option list is a list and keeps its order. As a tree is read through what
stands at each place of it, maps can be put in order one after the other, at any depth
(`Document.order_irrelevant`). -/
namespace CommandSpec

/-! ## Collected fields -/

namespace OptionEntry

/-- What collecting does with the first entry. -/
theorem collect_cons_eq_ok_iff (key? : Option (Option String)) (e : Node × Node)
    (rest : List (Node × Node)) (reference : Option String) (fields : List (String × Node)) :
    collect key? (e :: rest) = .ok (reference, fields) ↔
      (e.1.readFieldName = .ok referenceField ∧ key? = none ∧
        ∃ key, e.2.readOptionalString = .ok key ∧
          collect (some key) rest = .ok (reference, fields)) ∨
      ∃ name v others, e.1.readFieldName = .ok name ∧ name ≠ referenceField ∧
        e.2.settle = .ok v ∧ collect key? rest = .ok (reference, others) ∧
        fields = (name, v) :: others := by
  obtain ⟨key, n⟩ := e
  constructor
  · intro h
    obtain ⟨name, hname, h⟩ := bind_eq_ok h
    by_cases href : name = referenceField
    · subst href
      rw [beq_self_eq_true, if_pos rfl] at h
      cases key? with
      | some => cases h
      | none =>
        obtain ⟨key, hkey, h⟩ := bind_eq_ok h
        exact Or.inl ⟨hname, rfl, key, hkey, h⟩
    · rw [beq_false_of_ne href, if_neg Bool.false_ne_true] at h
      obtain ⟨v, hv, h⟩ := bind_eq_ok h
      obtain ⟨⟨reference, others⟩, hrest, h⟩ := bind_eq_ok h
      cases h
      exact Or.inr ⟨name, v, others, hname, href, hv, hrest, rfl⟩
  · rintro (⟨hname, rfl, key', hkey, h⟩ | ⟨name, v, others, hname, href, hv, h, rfl⟩)
    · simp only [collect, hname, hkey, ok_bind, beq_self_eq_true, if_true, Option.isSome_none,
        Bool.false_eq_true, if_false]
      exact h
    · rw [collect_cons href hname, hv, ok_bind, h, ok_bind]

/-- The reference is the same in every order, and the other fields are collected in theirs. -/
theorem collect_perm {es es' : List (Node × Node)} (h : es.Perm es')
    (key? : Option (Option String)) (reference : Option String) (fields : List (String × Node))
    (hread : collect key? es = .ok (reference, fields)) :
    ∃ fields', fields.Perm fields' ∧ collect key? es' = .ok (reference, fields') := by
  induction h generalizing key? fields with
  | nil => exact ⟨fields, .refl _, hread⟩
  | cons e _ ih =>
    rcases (collect_cons_eq_ok_iff ..).mp hread with ⟨hname, hnone, key, hkey, hrest⟩ |
      ⟨name, v, others, hname, href, hv, hrest, rfl⟩
    · obtain ⟨fields', hp, hrest⟩ := ih _ fields hrest
      exact ⟨fields', hp, (collect_cons_eq_ok_iff ..).mpr
        (Or.inl ⟨hname, hnone, key, hkey, hrest⟩)⟩
    · obtain ⟨fields', hp, hrest⟩ := ih _ others hrest
      exact ⟨_, hp.cons _, (collect_cons_eq_ok_iff ..).mpr
        (Or.inr ⟨name, v, fields', hname, href, hv, hrest, rfl⟩)⟩
  | swap e e' rest =>
    rcases (collect_cons_eq_ok_iff ..).mp hread with ⟨hname', rfl, key, hkey, hmore⟩ |
      ⟨name', v', others, hname', href', hv', hmore, rfl⟩
    · rcases (collect_cons_eq_ok_iff ..).mp hmore with ⟨-, hnone, -⟩ |
        ⟨name, v, others, hname, href, hv, hrest, rfl⟩
      · -- there is one reference at most
        cases hnone
      · have hmore := (collect_cons_eq_ok_iff ..).mpr (Or.inl ⟨hname', rfl, key, hkey, hrest⟩)
        exact ⟨_, .refl _, (collect_cons_eq_ok_iff ..).mpr
          (Or.inr ⟨name, v, others, hname, href, hv, hmore, rfl⟩)⟩
    · rcases (collect_cons_eq_ok_iff ..).mp hmore with ⟨hname, rfl, key, hkey, hrest⟩ |
        ⟨name, v, others, hname, href, hv, hrest, rfl⟩
      · exact ⟨_, .refl _, (collect_cons_eq_ok_iff ..).mpr (Or.inl ⟨hname, rfl, key, hkey,
          (collect_cons_eq_ok_iff ..).mpr
            (Or.inr ⟨name', v', others, hname', href', hv', hrest, rfl⟩)⟩)⟩
      · exact ⟨_, .swap .., (collect_cons_eq_ok_iff ..).mpr (Or.inr ⟨name, v, _, hname, href, hv,
          (collect_cons_eq_ok_iff ..).mpr
            (Or.inr ⟨name', v', others, hname', href', hv', hrest, rfl⟩), rfl⟩)⟩
  | trans _ _ ih ih' =>
    obtain ⟨between, hp, hread⟩ := ih key? fields hread
    obtain ⟨fields', hp', hread⟩ := ih' key? between hread
    exact ⟨fields', hp.trans hp', hread⟩

theorem ofNode_perm {es es' : List (Node × Node)} (h : es.Perm es') (e : OptionEntry)
    (hread : ofNode (.map es) = .ok e) : ofNode (.map es') = .ok e := by
  rw [ofNode_map] at hread ⊢
  obtain ⟨⟨reference, fields⟩, hcollect, hread⟩ := bind_eq_ok hread
  obtain ⟨option, hoption, hread⟩ := bind_eq_ok hread
  obtain ⟨fields', hp, hcollect⟩ := collect_perm h none reference fields hcollect
  have hoption : OptionSpec.ofCollected [] {} fields' = .ok option :=
    OptionSpec.ofCollected_readsRecord.perm (OptionSpec.setsApart .collected) hp [] {} option
      hoption
  rw [hcollect, ok_bind, hoption, ok_bind, hread]

end OptionEntry

namespace Node

theorem settleEntries_cons_eq_ok_iff (e : Node × Node) (rest fields : List (Node × Node)) :
    settleEntries (e :: rest) = .ok fields ↔
      ∃ k v others, e.1.settle = .ok k ∧ e.2.settle = .ok v ∧ settleEntries rest = .ok others ∧
        fields = (k, v) :: others := by
  rw [settleEntries]
  constructor
  · intro h
    obtain ⟨k, hk, h⟩ := bind_eq_ok h
    obtain ⟨v, hv, h⟩ := bind_eq_ok h
    obtain ⟨others, hrest, h⟩ := bind_eq_ok h
    cases h
    exact ⟨k, v, others, hk, hv, hrest, rfl⟩
  · rintro ⟨k, v, others, hk, hv, hrest, rfl⟩
    rw [hk, ok_bind, hv, ok_bind, hrest, ok_bind]
    rfl

theorem settleEntries_perm {es es' : List (Node × Node)} (h : es.Perm es')
    (fields : List (Node × Node)) (hread : settleEntries es = .ok fields) :
    ∃ fields', fields.Perm fields' ∧ settleEntries es' = .ok fields' := by
  induction h generalizing fields with
  | nil => exact ⟨fields, .refl _, hread⟩
  | cons e _ ih =>
    obtain ⟨k, v, others, hk, hv, hrest, rfl⟩ := (settleEntries_cons_eq_ok_iff ..).mp hread
    obtain ⟨fields', hp, hrest⟩ := ih others hrest
    exact ⟨_, hp.cons _, (settleEntries_cons_eq_ok_iff ..).mpr
      ⟨k, v, fields', hk, hv, hrest, rfl⟩⟩
  | swap e e' rest =>
    obtain ⟨k', v', others, hk', hv', hmore, rfl⟩ := (settleEntries_cons_eq_ok_iff ..).mp hread
    obtain ⟨k, v, others, hk, hv, hrest, rfl⟩ := (settleEntries_cons_eq_ok_iff ..).mp hmore
    exact ⟨_, .swap .., (settleEntries_cons_eq_ok_iff ..).mpr ⟨k, v, _, hk, hv,
      (settleEntries_cons_eq_ok_iff ..).mpr ⟨k', v', others, hk', hv', hrest, rfl⟩, rfl⟩⟩
  | trans _ _ ih ih' =>
    obtain ⟨between, hp, hread⟩ := ih fields hread
    obtain ⟨fields', hp', hread⟩ := ih' between hread
    exact ⟨fields', hp.trans hp', hread⟩

end Node

theorem readBinding_perm {α : Type} (expected : String) {known : List String}
    {setField : String → Node → α → Except DecodeError α} {start absent : α}
    {Change : String → (α → α) → Prop} (hs : SetsApart known setField Change)
    {es es' : List (Node × Node)} (h : es.Perm es') (a : α)
    (hread : (Node.map es).settle >>= Shape.readUnlessAbsent absent
      (readBinding .collected expected known setField start) = .ok a) :
    (Node.map es').settle >>= Shape.readUnlessAbsent absent
      (readBinding .collected expected known setField start) = .ok a := by
  rw [readBinding_map] at hread ⊢
  obtain ⟨fields, hsettle, hread⟩ := bind_eq_ok hread
  obtain ⟨fields', hp, hsettle⟩ := Node.settleEntries_perm h fields hsettle
  rw [hsettle, ok_bind]
  exact (readNumbered_readsRecord known setField).perm hs hp [] start a hread

/-! ## Shapes -/

namespace Shape

/-- Whether the order of the entries of a map does not matter; an option list in map form is a
list. -/
def ignoresOrder : Shape → Bool
  | options => false
  | document | optionApi | components | commands | command | namedOptions | entry | env | flag =>
    true

/-- A map is read alike in every order, if the keys of a map of names are different names. -/
theorem read_perm (s : Shape) (hs : s.ignoresOrder = true) {es es' : List (Node × Node)}
    (h : es.Perm es') (hnames : s.values.isSome = true → es.Pairwise NamesDiffer) (a : s.Result)
    (hread : s.read (.map es) = .ok a) : s.read (.map es') = .ok a := by
  cases s with
  | document =>
    exact (readFields_readsRecord _ _).perm Document.setsApart h [] {} a hread
  | optionApi =>
    exact (readFields_readsRecord _ _).perm (.of_single "version" Node.readScalarText) h [] none a
      hread
  | components =>
    exact (readFields_readsRecord _ _).perm (.of_single "options" readNamedOptions) h [] .empty a
      hread
  | commands =>
    simp only [read, Commands.ofNode] at hread ⊢
    exact Commands.ofEntries_readsMap.perm (fun hne x y c => c.insert_comm hne x y) h (hnames rfl)
      {} a hread
  | command =>
    simp only [read, Command.ofBody, Command.ofFields_eq] at hread ⊢
    exact (readFields_readsRecord _ _).perm Command.setsApart h [] {} a hread
  | options => cases hs
  | namedOptions =>
    have hmap (es : List (Node × Node)) : namedOptions.read (.map es) =
        readEntryMap .empty es >>= fun m => componentsOf .empty m.entries := rfl
    rw [hmap] at hread ⊢
    obtain ⟨m, hentries, hread⟩ := bind_eq_ok hread
    have hentries : readEntryMap .empty es' = .ok m := readEntryMap_readsMap.perm
      (fun hne x y m => m.insert_comm hne x y) h (hnames rfl) .empty m hentries
    rw [hentries, ok_bind, hread]
  | entry => exact OptionEntry.ofNode_perm h a hread
  | env => exact readBinding_perm _ (.of_single "name" Node.readString) h a hread
  | flag => exact readBinding_perm _ FlagBinding.setsApart h a hread

end Shape

/-! ## Documents -/

/-- Two document trees that differ in the order of the entries of one map: a record, the commands
of a node or the named options. Different entries of a map of names have different names. -/
inductive Reordering : Node → Node → Prop where
  | map {s : Shape} {around : Node → Node} (place : Place s .document around)
      (hs : s.ignoresOrder = true) {es es' : List (Node × Node)} (h : es.Perm es')
      (hnames : s.values.isSome = true → es.Pairwise NamesDiffer) :
      Reordering (around (.map es)) (around (.map es'))

theorem Reordering.symm {n n' : Node} (h : Reordering n n') : Reordering n' n := by
  obtain ⟨place, hs, h, hnames⟩ := h
  exact .map place hs h.symm fun hv => h.pairwise (hnames hv) NamesDiffer.symm

/-- A tree is read through the map that was put in another order. -/
theorem Reordering.ofNode {n n' : Node} (h : Reordering n n') (d : Document)
    (hread : Document.ofNode n = .ok d) : Document.ofNode n' = .ok d := by
  obtain ⟨place, hs, h, hnames⟩ := h
  exact place.congr (.map _) (.map _) (Shape.read_perm _ hs h hnames) hread

/-- **The order of declarations does not matter.** When maps of a document tree are put in another
order, any number of them at any depth, the one tree is decoded exactly if the other is, and to the
same document. So neither do the errors of its bounds differ, nor what its references resolve to,
nor the bindings generated from it. -/
theorem Document.order_irrelevant (n n' : Node) (h : Relation.ReflTransGen Reordering n n') :
    (∀ d, ofNode n = .ok d ↔ ofNode n' = .ok d) ∧
      ∀ d d', ofNode n = .ok d → ofNode n' = .ok d' →
        d.validate = d'.validate ∧ d.resolve = d'.resolve ∧
          ∀ config, generateText d config = generateText d' config := by
  have hiff : ∀ d, ofNode n = .ok d ↔ ofNode n' = .ok d := by
    induction h with
    | refl => exact fun d => Iff.rfl
    | tail _ step ih => exact fun d => (ih d).trans ⟨step.ofNode d, step.symm.ofNode d⟩
  refine ⟨hiff, fun d d' hd hd' => ?_⟩
  obtain rfl : d = d' := Except.ok.inj (((hiff d).mp hd).symm.trans hd')
  exact ⟨rfl, rfl, fun _ => rfl⟩

/-- The usage of `a`. -/
def usageOfA : Node × Node := (.text "usage", .text "a it")

def descriptionOfA : Node × Node := (.text "description", .text "Runs.")

def commandA (fields : List (Node × Node)) : Node × Node := (.text "a", .map fields)

/-- A command without a body. -/
def commandB : Node × Node := (.text "b", .null)

def commandsField (entries : List (Node × Node)) : Node × Node := (.text "commands", .map entries)

def componentsField : Node × Node :=
  (.text "components", .map [(.text "options", .map [(.text "x", .map [])])])

/-- Commands before components, `a` before `b`, the usage of `a` before its description. -/
def inOrder : Node :=
  .map [commandsField [commandA [usageOfA, descriptionOfA], commandB], componentsField]

/-- The same with all three the other way round. -/
def outOfOrder : Node :=
  .map [componentsField, commandsField [commandB, commandA [descriptionOfA, usageOfA]]]

theorem outOfOrder_decoded :
    Relation.ReflTransGen Reordering inOrder outOfOrder ∧
      ∃ d, Document.ofNode inOrder = .ok d ∧ Document.ofNode outOfOrder = .ok d ∧
        d.commands.forest.names = ["a", "b"] := by
  have hcommands : ("commands", Shape.commands) ∈ Shape.document.parts := by decide
  have hnames : [commandA [usageOfA, descriptionOfA], commandB].Pairwise NamesDiffer := by
    refine List.pairwise_pair.mpr fun name h h' => ?_
    cases h
    exact absurd (Except.ok.inj h') (by decide)
  have hroot : Reordering inOrder
      (.map [componentsField, commandsField [commandA [usageOfA, descriptionOfA], commandB]]) :=
    .map .here rfl (.swap ..) (by simp [Shape.values])
  have hmap : Reordering
      (.map [componentsField, commandsField [commandA [usageOfA, descriptionOfA], commandB]])
      (.map [componentsField, commandsField [commandB, commandA [usageOfA, descriptionOfA]]]) :=
    .map (.field [componentsField] [] hcommands rfl .here) rfl (.swap ..) fun _ => hnames
  have hbody : Reordering
      (.map [componentsField, commandsField [commandB, commandA [usageOfA, descriptionOfA]]])
      outOfOrder :=
    .map (.field [componentsField] [] hcommands rfl (.value [commandB] [] rfl .here)) rfl
      (.swap ..) (by simp [Shape.values])
  have hsteps := ((Relation.ReflTransGen.single hroot).tail hmap).tail hbody
  have hiff := (Document.order_irrelevant _ _ hsteps).1
  have hforest : (Document.ofNode inOrder).toOption.map (·.commands.forest.names) =
      some ["a", "b"] := by decide +kernel
  obtain ⟨d, hread, hd⟩ := Option.map_eq_some_iff.mp hforest
  have hread : Document.ofNode inOrder = .ok d := eq_ok_of_toOption hread
  exact ⟨hsteps, d, hread, (hiff d).mp hread, hd⟩

end CommandSpec
