import CommandSpec.Proofs.KeptDefinitions
import CommandSpec.Proofs.References
import CommandSpec.Proofs.SettledFields
import CommandSpec.Proofs.WrittenFields

/-! Option entries and plain options. An entry takes its reference aside, finishes its other fields
and decodes those (`OptionEntry.ofNode_map_eq_ok_iff`); a plain option is decoded as it stands.
Where both read the fields alike, an entry is the plain option of its other fields, or the reference
(`OptionEntry.ofNode_ok_iff_denoted`). -/
namespace CommandSpec
open Yaml

variable {α β : Type}

/-! ## Reference and fields -/

namespace OptionEntry

/-- The field is kept under its name as a finished value. -/
def Kept (e : Node × Node) (f : String × Node) : Prop :=
  e.1.readFieldName = .ok f.1 ∧ e.2.settle = .ok f.2

/-- What the fields of an entry say of a reference: there is one at most. -/
def ReferenceIs (es : List (Node × Node)) (reference : Option String) : Prop :=
  (Node.fieldValues referenceField es = [] ∧ reference = none) ∨
    ∃ v, Node.fieldValues referenceField es = [v] ∧ v.readOptionalString = .ok reference

theorem collect_eq_ok_iff (key? : Option (Option String)) (es : List (Node × Node))
    (reference : Option String) (fields : List (String × Node)) :
    collect key? es = .ok (reference, fields) ↔
      List.Forall₂ Kept (Shape.entry.leaveOut referenceField es) fields ∧
        ((Node.fieldValues referenceField es = [] ∧ reference = key?.getD none) ∨
          ∃ v, Node.fieldValues referenceField es = [v] ∧ key? = none ∧
            v.readOptionalString = .ok reference) := by
  induction es generalizing key? fields with
  | nil =>
    have hleave : Shape.entry.leaveOut referenceField [] = [] := rfl
    have hvalues : Node.fieldValues referenceField [] = [] := rfl
    rw [hleave, hvalues, List.forall₂_nil_left_iff]
    constructor
    · rintro ⟨⟩
      exact ⟨rfl, Or.inl ⟨rfl, rfl⟩⟩
    · rintro ⟨rfl, ⟨-, rfl⟩ | ⟨v, hv, -⟩⟩
      · rfl
      · cases hv
  | cons e rest ih =>
    rw [collect_cons_eq_ok_iff]
    by_cases href : e.1.readFieldName = .ok referenceField
    · have hname : Shape.entry.fieldOf? e.1 = some referenceField := congrArg Except.toOption href
      rw [Shape.leaveOut_cons_self hname, Node.fieldValues_cons_self href]
      constructor
      · rintro (⟨-, rfl, key, hkey, hrest⟩ | ⟨name, v, others, hother, hne, -⟩)
        · obtain ⟨hfields, ⟨hnone, rfl⟩ | ⟨v, -, hsome, -⟩⟩ := (ih ..).mp hrest
          · exact ⟨hfields, Or.inr ⟨e.2, by rw [hnone], rfl, hkey⟩⟩
          · cases hsome
        · exact absurd (Except.ok.inj (hother.symm.trans href)) hne
      · rintro ⟨hfields, ⟨hnone, -⟩ | ⟨v, hvalues, rfl, hread⟩⟩
        · cases hnone
        · obtain ⟨rfl, hnone⟩ := List.cons.inj hvalues
          exact Or.inl ⟨href, rfl, reference, hread, (ih ..).mpr ⟨hfields, Or.inl ⟨hnone, rfl⟩⟩⟩
    · have hname : Shape.entry.fieldOf? e.1 ≠ some referenceField :=
        fun h => href (eq_ok_of_toOption h)
      have hvalues : Node.fieldValues referenceField (e :: rest) =
          Node.fieldValues referenceField rest := by
        have hother : ¬e.1.readFieldName.toOption = some referenceField := hname
        rw [Node.fieldValues_cons, if_neg hother, List.nil_append]
      rw [Shape.leaveOut_cons_other hname, hvalues, List.forall₂_cons_left_iff]
      constructor
      · rintro (⟨hother, -⟩ | ⟨name, v, others, hother, -, hv, hrest, rfl⟩)
        · exact absurd hother href
        · obtain ⟨hfields, hreference⟩ := (ih ..).mp hrest
          exact ⟨⟨(name, v), others, ⟨hother, hv⟩, hfields, rfl⟩, hreference⟩
      · rintro ⟨⟨⟨name, v⟩, others, ⟨hother, hv⟩, hfields, rfl⟩, hreference⟩
        refine Or.inr ⟨name, v, others, hother, fun h => href (h ▸ hother), hv,
          (ih ..).mpr ⟨hfields, hreference⟩, rfl⟩

theorem ofParts_eq_ok_iff (reference : Option String) (o : OptionSpec) (entry : OptionEntry) :
    ofParts reference o = .ok entry ↔
      ((∀ key, reference = some key → Text.isBlankText key = true) ∧ entry = inline o) ∨
        ∃ name, reference = some (referenceKey name) ∧ IsReferable name ∧
          entry = OptionEntry.reference (referenceKey name) := by
  cases reference with
  | none =>
    constructor
    · rintro ⟨⟩
      exact Or.inl ⟨nofun, rfl⟩
    · rintro (⟨-, rfl⟩ | ⟨name, hname, -⟩)
      · rfl
      · cases hname
  | some key =>
    by_cases hblank : Text.isBlankText key = true
    · have hparts : ofParts (some key) o = .ok (inline o) := by simp [ofParts, hblank]
      rw [hparts]
      constructor
      · rintro ⟨⟩
        exact Or.inl ⟨fun key' h => by cases h; exact hblank, rfl⟩
      · rintro (⟨-, rfl⟩ | ⟨name, hkey, hname, -⟩)
        · rfl
        · -- a reference is never blank
          have hkey := (isReferenceKey_iff key).mpr ⟨name, hname, Option.some.inj hkey⟩
          rw [isBlankText_of_isReferenceKey key hkey] at hblank
          cases hblank
    · have hinline : ¬∀ key', some key = some key' → Text.isBlankText key' = true :=
        fun h => hblank (h key rfl)
      by_cases hkey : isReferenceKey key = true
      · have hparts : ofParts (some key) o = .ok (OptionEntry.reference key) := by
          simp [ofParts, hblank, hkey]
        rw [hparts]
        obtain ⟨name, hname, rfl⟩ := (isReferenceKey_iff key).mp hkey
        constructor
        · rintro ⟨⟩
          exact Or.inr ⟨name, rfl, hname, rfl⟩
        · rintro (⟨h, -⟩ | ⟨other, hother, -, rfl⟩)
          · exact absurd h hinline
          · rw [Option.some.inj hother]
      · have hparts : ofParts (some key) o = .error (.invalidReference key) := by
          simp [ofParts, hblank, hkey]
        rw [hparts]
        refine iff_of_false nofun ?_
        rintro (⟨h, -⟩ | ⟨name, hsome, hname, -⟩)
        · exact hinline h
        · exact hkey ((isReferenceKey_iff key).mpr ⟨name, hname, Option.some.inj hsome⟩)

/-- An entry is decoded from its reference and its other fields as finished values. -/
theorem ofNode_map_eq_ok_iff (es : List (Node × Node)) (entry : OptionEntry) :
    ofNode (.map es) = .ok entry ↔
      ∃ reference fields o, ReferenceIs es reference ∧
        List.Forall₂ Kept (Shape.entry.leaveOut referenceField es) fields ∧
        OptionSpec.ofCollected [] {} fields = .ok o ∧ ofParts reference o = .ok entry := by
  have hcollect (reference : Option String) (fields : List (String × Node)) :
      collect none es = .ok (reference, fields) ↔ ReferenceIs es reference ∧
        List.Forall₂ Kept (Shape.entry.leaveOut referenceField es) fields := by
    rw [collect_eq_ok_iff, and_comm]
    simp [ReferenceIs]
  rw [ofNode_map]
  constructor
  · intro h
    obtain ⟨⟨reference, fields⟩, hfields, h⟩ := bind_eq_ok h
    obtain ⟨o, ho, h⟩ := bind_eq_ok h
    obtain ⟨hreference, hkept⟩ := (hcollect ..).mp hfields
    exact ⟨reference, fields, o, hreference, hkept, ho, h⟩
  · rintro ⟨reference, fields, o, hreference, hkept, ho, h⟩
    rw [(hcollect ..).mpr ⟨hreference, hkept⟩, ok_bind, ho, ok_bind, h]

end OptionEntry

/-! ## The entry of a plain mapping -/

/-- The node is read as this string: it is one, or a scalar of a text that is no null. -/
def Node.Spells (n : Node) (s : String) : Prop :=
  n = .text s ∨ ∃ t, n = .scalar t ∧ t.text = s ∧ ¬n.IsNull

theorem Node.isNull_of_resolve {s : Scalar} (htag : s.tag = none) (h : s.resolve = .ok .null) :
    (scalar s).IsNull := by
  constructor
  · rw [settle, htag, h]
    rfl
  · intro s' hs
    cases hs
    rw [Scalar.resolve_untagged htag] at h
    cases hp : s.isPlain with
    | true => rfl
    | false =>
      rw [hp] at h
      cases h

theorem Node.readOptionalString_eq_ok_iff {n : Node} (hn : n.isValue = true)
    (text? : Option String) :
    n.readOptionalString = .ok text? ↔
      (text? = none ∧ n.IsNull) ∨ ∃ s, text? = some s ∧ n.Spells s := by
  cases n with
  | null =>
    constructor
    · rintro ⟨⟩
      exact Or.inl ⟨rfl, rfl, fun s h => by cases h⟩
    · rintro (⟨rfl, -⟩ | ⟨s, -, h | ⟨t, h, -⟩⟩)
      · rfl
      · cases h
      · cases h
  | text s =>
    constructor
    · rintro ⟨⟩
      exact Or.inr ⟨s, rfl, Or.inl rfl⟩
    · rintro (⟨-, h, -⟩ | ⟨s', rfl, h | ⟨t, h, -⟩⟩)
      · cases h
      · cases h
        rfl
      · cases h
  | scalar t =>
    by_cases hnull : (scalar t).IsNull
    · rw [hnull.readOptionalString]
      constructor
      · rintro ⟨⟩
        exact Or.inl ⟨rfl, hnull⟩
      · rintro (⟨rfl, -⟩ | ⟨s, -, h | ⟨t', -, -, hne⟩⟩)
        · rfl
        · cases h
        · exact absurd hnull hne
    · have htag : t.tag = none := Option.isNone_iff_eq_none.mp hn
      have hne : t.resolve ≠ .ok .null := fun h => hnull (isNull_of_resolve htag h)
      have hread : (scalar t).readOptionalString = .ok (some t.text) := by
        rw [readOptionalString, readOptional,
          Scalar.isAbsent_untagged htag (Scalar.resolve_untagged htag)]
        rw [Scalar.resolve_untagged htag] at hne
        rw [beq_false_of_ne fun h => hne (congrArg Except.ok h)]
        rfl
      rw [hread]
      constructor
      · rintro ⟨⟩
        exact Or.inr ⟨_, rfl, Or.inr ⟨t, rfl, rfl, hnull⟩⟩
      · rintro (⟨-, h⟩ | ⟨s, rfl, h | ⟨t', h, rfl, -⟩⟩)
        · exact absurd h hnull
        · cases h
        · cases h
          rfl
  | bool | int | float | seq | map =>
    refine iff_of_false (fun h => by cases h) ?_
    rintro (⟨-, h⟩ | ⟨s, -, h | ⟨t, h, -⟩⟩)
    · rcases h.cases with h | ⟨t, h, -⟩ <;> cases h
    · cases h
    · cases h
  | tagged | fault => cases hn

theorem exists_forall₂ {R : α → β → Prop} {as : List α} (h : ∀ a ∈ as, ∃ b, R a b) :
    ∃ bs, List.Forall₂ R as bs := by
  induction as with
  | nil => exact ⟨[], .nil⟩
  | cons a rest ih =>
    obtain ⟨⟨b, hb⟩, hrest⟩ := List.forall_mem_cons.mp h
    obtain ⟨bs, hbs⟩ := ih hrest
    exact ⟨b :: bs, .cons hb hbs⟩

namespace OptionEntry

/-- What an entry of these fields is by its description: without a reference, or with a blank one,
the plain option of the other fields; with a key of a component the reference, if the other fields
make an option. -/
inductive Denoted (es : List (Node × Node)) : OptionEntry → Prop where
  | inline {o : OptionSpec}
      (href : Node.fieldValues referenceField es = [] ∨
        ∃ v, Node.fieldValues referenceField es = [v] ∧
          (v.IsNull ∨ ∃ s, v.Spells s ∧ Text.isBlankText s = true))
      (ho : OptionSpec.ofNode (.map (Shape.entry.leaveOut referenceField es)) = .ok o) :
      Denoted es (.inline o)
  | reference {o : OptionSpec} {v : Node} {name : String}
      (hv : Node.fieldValues referenceField es = [v]) (hkey : v.Spells (referenceKey name))
      (hname : IsReferable name)
      (ho : OptionSpec.ofNode (.map (Shape.entry.leaveOut referenceField es)) = .ok o) :
      Denoted es (.reference (referenceKey name))

/-- The fields besides the reference can be kept, and are read alike finished or not. -/
def ReadsAlike (es : List (Node × Node)) : Prop :=
  ∀ e ∈ Shape.entry.leaveOut referenceField es, e.2.all Node.isKeepable = true ∧
    e.1.readFieldName.toOption.all (OptionSpec.readsAlike · e.2) = true

instance (es : List (Node × Node)) : Decidable (ReadsAlike es) :=
  inferInstanceAs (Decidable (∀ e ∈ _, _ ∧ _))

variable {es : List (Node × Node)}

theorem exists_kept (htree : (Node.map es).all Node.isValue = true) (halike : ReadsAlike es) :
    ∃ fields, List.Forall₂ Kept (Shape.entry.leaveOut referenceField es) fields := by
  obtain ⟨hkeys, -⟩ := Bool.and_eq_true_iff.mp htree
  refine exists_forall₂ fun e he => ?_
  obtain ⟨field, hname⟩ :=
    Node.isString_of_isStringKey (List.all_eq_true.mp hkeys e (List.mem_of_mem_filter he))
  obtain ⟨w, hw⟩ := e.2.settle_ok_iff.mpr (halike e he).1
  exact ⟨(field, w), hname.readFieldName, hw⟩

/-- The fields that were kept make the same option as they stand. -/
theorem ofCollected_kept (htree : (Node.map es).all Node.isValue = true) (halike : ReadsAlike es)
    {fields : List (String × Node)}
    (hkept : List.Forall₂ Kept (Shape.entry.leaveOut referenceField es) fields) (o : OptionSpec) :
    OptionSpec.ofCollected [] {} fields = .ok o ↔
      OptionSpec.ofNode (.map (Shape.entry.leaveOut referenceField es)) = .ok o := by
  obtain ⟨-, hvalues⟩ := Bool.and_eq_true_iff.mp htree
  have hvalues := (Node.allEntries_iff ..).mp hvalues
  have hall : ∀ e ∈ Shape.entry.leaveOut referenceField es, e.2.all Node.isValue = true ∧
      e.1.readFieldName.toOption.all (OptionSpec.readsAlike · e.2) = true :=
    fun e he => ⟨(hvalues e (List.mem_of_mem_filter he)).2, (halike e he).2⟩
  refine eq_ok_iff_of_toOption (Eq.symm ?_) o
  refine (readFields_readsRecord OptionSpec.fieldNames (OptionSpec.setField .direct)).toOption_congr
    OptionSpec.ofCollected_readsRecord ?_ [] {}
  refine ((List.forall₂_and_left _ _).mpr ⟨hall, hkept⟩).imp ?_
  rintro e f ⟨⟨hvalue, hfield⟩, hname, hw⟩
  rw [hname] at hfield
  exact ⟨f.1, hname, rfl, fun hknown o => OptionSpec.setField_settled hknown hvalue hw hfield o,
    Node.skip_of_settle hw, rfl⟩

theorem isValue_of_fieldValues (htree : (Node.map es).all Node.isValue = true) {field : String}
    {v : Node} (hv : Node.fieldValues field es = [v]) : v.isValue = true := by
  obtain ⟨-, hvalues⟩ := Bool.and_eq_true_iff.mp htree
  have hmem : v ∈ Node.fieldValues field es := by simp [hv]
  obtain ⟨e, he, rfl⟩ := List.mem_map.mp hmem
  exact Node.all_self ((Node.allEntries_iff ..).mp hvalues e (List.mem_of_mem_filter he)).2

/-- **An option entry is the plain option of its other fields, or the reference.** In a plain
mapping whose other fields are read alike finished or not, a reference that is absent, null or blank
leaves the option of the other fields; one that is the key of a name takes their place if they make
an option; and no other entry is decoded. -/
theorem ofNode_ok_iff_denoted (htree : (Node.map es).all Node.isValue = true)
    (halike : ReadsAlike es) (entry : OptionEntry) :
    ofNode (.map es) = .ok entry ↔ Denoted es entry := by
  have hread {v : Node} (hv : Node.fieldValues referenceField es = [v]) :=
    Node.readOptionalString_eq_ok_iff (isValue_of_fieldValues htree hv)
  rw [ofNode_map_eq_ok_iff]
  constructor
  · rintro ⟨reference, fields, o, hreference, hkept, ho, hparts⟩
    have ho := (ofCollected_kept htree halike hkept o).mp ho
    rcases (ofParts_eq_ok_iff ..).mp hparts with ⟨hblank, rfl⟩ | ⟨name, rfl, hname, rfl⟩
    · refine .inline ?_ ho
      rcases hreference with ⟨hnone, -⟩ | ⟨v, hv, hkey⟩
      · exact Or.inl hnone
      · rcases (hread hv reference).mp hkey with ⟨-, hnull⟩ | ⟨s, rfl, hs⟩
        · exact Or.inr ⟨v, hv, Or.inl hnull⟩
        · exact Or.inr ⟨v, hv, Or.inr ⟨s, hs, hblank s rfl⟩⟩
    · rcases hreference with ⟨-, hkey⟩ | ⟨v, hv, hkey⟩
      · cases hkey
      · rcases (hread hv _).mp hkey with ⟨hnone, -⟩ | ⟨s, hsome, hs⟩
        · cases hnone
        · rw [← Option.some.inj hsome] at hs
          exact .reference hv hs hname ho
  · obtain ⟨fields, hkept⟩ := exists_kept htree halike
    rintro (⟨href, ho⟩ | ⟨hv, hkey, hname, ho⟩)
    · have ho := (ofCollected_kept htree halike hkept _).mpr ho
      rcases href with hnone | ⟨v, hv, hnull | ⟨s, hs, hblank⟩⟩
      · exact ⟨none, fields, _, Or.inl ⟨hnone, rfl⟩, hkept, ho, rfl⟩
      · exact ⟨none, fields, _, Or.inr ⟨v, hv, hnull.readOptionalString⟩, hkept, ho, rfl⟩
      · refine ⟨some s, fields, _, Or.inr ⟨v, hv, (hread hv _).mpr (Or.inr ⟨s, rfl, hs⟩)⟩, hkept,
          ho, (ofParts_eq_ok_iff ..).mpr (Or.inl ⟨fun key h => ?_, rfl⟩)⟩
        cases h
        exact hblank
    · exact ⟨_, fields, _, Or.inr ⟨_, hv, (hread hv _).mpr (Or.inr ⟨_, rfl, hkey⟩)⟩, hkept,
        (ofCollected_kept htree halike hkept _).mpr ho,
        (ofParts_eq_ok_iff ..).mpr (Or.inr ⟨_, rfl, hname, rfl⟩)⟩

/-- An entry as a text writes it, with a reference and a default that is a number. -/
def writtenEntry (key : String) : List (Node × Node) :=
  [(.plain "name", .plain "port"), (.plain "default", .plain "30"),
    (.plain "$ref", .quoted key), (.plain "flag", .map [(.plain "name", .plain "-p")])]

theorem writtenEntry_denoted :
    (∀ key ∈ [" ", "#/components/options/Port"],
      (Node.map (writtenEntry key)).all Node.isValue = true ∧ ReadsAlike (writtenEntry key)) ∧
      ofNode (.map (writtenEntry " ")) =
        .ok (.inline { name := "port", default := some "30", flag := { name := "-p" } }) ∧
      ofNode (.map (writtenEntry "#/components/options/Port")) =
        .ok (.reference "#/components/options/Port") := by
  have hfits : ∀ key ∈ [" ", "#/components/options/Port"],
      (Node.map (writtenEntry key)).all Node.isValue = true ∧ ReadsAlike (writtenEntry key) := by
    decide +kernel
  have hquoted (key : String) : (Node.quoted key).Spells key :=
    Or.inr ⟨_, rfl, rfl, fun h => by cases h.2 _ rfl⟩
  have hrest (key : String) : Shape.entry.leaveOut referenceField (writtenEntry key) =
      [(.plain "name", .plain "port"), (.plain "default", .plain "30"),
        (.plain "flag", .map [(.plain "name", .plain "-p")])] := rfl
  have hoption (key : String) :
      OptionSpec.ofNode (.map (Shape.entry.leaveOut referenceField (writtenEntry key))) =
        .ok { name := "port", default := some "30", flag := { name := "-p" } } := by
    rw [hrest]
    exact eq_ok_of_toOption (by decide +kernel)
  have hblank := hfits " " (by simp)
  have hkey := hfits "#/components/options/Port" (by simp)
  exact ⟨hfits,
    (ofNode_ok_iff_denoted hblank.1 hblank.2 _).mpr
      (.inline (Or.inr ⟨_, rfl, Or.inr ⟨" ", hquoted _, by decide⟩⟩) (hoption _)),
    (ofNode_ok_iff_denoted hkey.1 hkey.2 _).mpr
      (.reference rfl (hquoted (referenceKey "Port")) (by decide) (hoption _))⟩

/-- A binding as a sequence makes an option of an entry but no plain option; a name that a text
writes like a number makes a plain option but no entry. -/
theorem entry_unlike_option :
    (Node.map [(.text "name", .text "a"), (.text "env", .seq [.text "FOO"])]).all Node.isValue =
        true ∧
      ofNode (.map [(.text "name", .text "a"), (.text "env", .seq [.text "FOO"])]) =
        .ok (.inline { name := "a", env := "FOO" }) ∧
      OptionSpec.ofNode (.map [(.text "name", .text "a"), (.text "env", .seq [.text "FOO"])]) =
        .error (.invalidType .seq "struct EnvBinding") ∧
      (Node.map [(.plain "name", .plain "30")]).all Node.isValue = true ∧
      ofNode (.map [(.plain "name", .plain "30")]) =
        .error (.invalidType (.int 30) "a string") ∧
      OptionSpec.ofNode (.map [(.plain "name", .plain "30")]) = .ok { name := "30" } :=
  ⟨by decide +kernel, eq_ok_of_toOption (by decide +kernel),
    eq_error_of_failure? (by decide +kernel), by decide +kernel,
    eq_error_of_failure? (by decide +kernel), eq_ok_of_toOption (by decide +kernel)⟩

end OptionEntry

end CommandSpec
