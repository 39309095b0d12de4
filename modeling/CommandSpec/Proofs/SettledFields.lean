import CommandSpec.Proofs.NullFields
import CommandSpec.Proofs.ScalarTexts
import Mathlib.Data.List.Forall2

/-! Fields that are finished before they are read. A finished value is read as the unfinished one
where a number, a truth value or any scalar is asked for; where a string is, only if a text does not
write it like another value; and in a binding if that is no sequence and its fields are read alike
(`readBinding_settled`). So the fields of an option are read alike (`OptionSpec.setField_settled`),
as long as its mapping has string keys and no tags. -/
namespace CommandSpec
open Yaml

variable {α β : Type}

/-! ## Plain mappings -/

namespace Node

/-- The key of a plain mapping. -/
def isStringKey (n : Node) : Bool :=
  match n.settle with
  | .ok (.text _) => true
  | _ => false

/-- Whether the node by itself is a value without a tag, its keys strings. -/
def isValue : Node → Bool
  | scalar s => s.tag.isNone
  | map entries => entries.all fun e => e.1.isStringKey
  | tagged _ _ | fault _ => false
  | null | bool _ | int _ | float _ | text _ | seq _ => true

/-- Whether the node, if it is a scalar of a text, stands for a string. -/
def isTextual : Node → Bool
  | scalar s =>
    match s.resolve with
    | .ok (.text _) => true
    | _ => false
  | _ => true

/-- Whether the node, if it is a scalar of a text, stands for a string or null. -/
def isTextualOrNull : Node → Bool
  | scalar s =>
    match s.resolve with
    | .ok (.text _) | .ok .null => true
    | _ => false
  | _ => true

theorem isString_of_isStringKey {n : Node} (h : n.isStringKey = true) : ∃ s, n.IsString s := by
  unfold isStringKey at h
  split at h
  · exact ⟨_, ‹_›⟩
  · cases h

end Node

/-- Without a tag it is absent exactly if it stands for null. -/
theorem Yaml.Scalar.isAbsent_untagged {s : Scalar} (htag : s.tag = none) {r : Resolved}
    (hr : s.resolve = .ok r) : Node.scalarIsAbsent s = .ok (r == .null) := by
  have hlocal : localTag? s.tag = none := by
    rw [htag]
    rfl
  rw [isAbsent_of_resolve hlocal hr]
  rw [resolve_untagged htag] at hr
  cases hp : s.isPlain with
  | true => rw [Bool.true_and]
  | false =>
    rw [hp] at hr
    cases hr
    rfl

/-! ## Readers -/

namespace Node

variable {v w : Node}

theorem readString_settled (h : v.settle = .ok w) (htext : v.isTextual = true) :
    v.readString.toOption = w.readString.toOption := by
  rcases settle_cases h with ⟨rfl, -⟩ | ⟨s, r, rfl, -, hr, hw⟩ | ⟨_, _, rfl, rfl, -⟩ |
    ⟨_, _, rfl, rfl, -⟩
  · rfl
  · cases r with
    | text t =>
      cases hw
      rw [Scalar.eq_text_of_resolve hr]
      rfl
    | null | bool | int | wide | float => simp [isTextual, hr] at htext
  · rfl
  · rfl

theorem readOptionalString_settled (hv : v.isValue = true) (h : v.settle = .ok w)
    (htext : v.isTextualOrNull = true) :
    v.readOptionalString.toOption = w.readOptionalString.toOption := by
  rcases settle_cases h with ⟨rfl, -⟩ | ⟨s, r, rfl, -, hr, hw⟩ | ⟨_, _, rfl, rfl, -⟩ |
    ⟨_, _, rfl, rfl, -⟩
  · rfl
  · have habsent := Scalar.isAbsent_untagged (Option.isNone_iff_eq_none.mp hv) hr
    rw [readOptionalString, readOptional, habsent]
    cases r with
    | null =>
      cases hw
      rfl
    | text t =>
      cases hw
      rw [Scalar.eq_text_of_resolve hr]
      rfl
    | bool | int | wide | float => simp [isTextualOrNull, hr] at htext
  · rfl
  · rfl

theorem readBool_settled (hv : v.isValue = true) (h : v.settle = .ok w) :
    v.readBool.toOption = w.readBool.toOption := by
  rcases settle_cases h with ⟨rfl, -⟩ | ⟨s, r, rfl, -, hr, hw⟩ | ⟨_, _, rfl, rfl, -⟩ |
    ⟨_, _, rfl, rfl, -⟩
  · rfl
  · have htag : s.tag = none := Option.isNone_iff_eq_none.mp hv
    rw [Scalar.resolve_untagged htag] at hr
    have hr := Except.ok.inj hr
    have hmay : s.mayBe boolTag = s.isPlain := by simp [Scalar.mayBe, htag]
    have hread : (scalar s).readBool.toOption =
        if s.isPlain then readBool? s.text else none := by
      unfold readBool
      simp only [untagged, hmay]
      split <;> simp [*, Except.toOption]
    rw [hread]
    cases hp : s.isPlain with
    | false =>
      rw [hp] at hr
      subst hr
      cases hw
      rfl
    | true =>
      rw [hp, if_pos rfl] at hr
      rw [if_pos rfl]
      cases hb : readBool? s.text with
      | some b =>
        rw [(resolvePlain_eq_bool_iff ..).mpr hb] at hr
        subst hr
        cases hw
        rfl
      | none =>
        cases r with
        | bool b =>
          rw [(resolvePlain_eq_bool_iff ..).mp hr] at hb
          cases hb
        | wide => cases hw
        | null | int | float | text =>
          cases hw
          rfl
  · rfl
  · rfl

theorem readScalarText_seq (items : List Node) : (seq items).readScalarText.toOption = none := by
  rw [readScalarText, value]
  cases valueItems items <;> rfl

theorem readScalarText_map (es : List (Node × Node)) :
    (map es).readScalarText.toOption = none := by
  rw [readScalarText, value]
  cases valueEntries [] es <;> rfl

theorem readScalarText_settled (hv : v.isValue = true) (h : v.settle = .ok w) :
    v.readScalarText.toOption = w.readScalarText.toOption := by
  rcases settle_cases h with ⟨rfl, -⟩ | ⟨s, r, rfl, -, hr, hw⟩ | ⟨_, _, rfl, rfl, -⟩ |
    ⟨_, _, rfl, rfl, -⟩
  · rfl
  · have hlocal : Scalar.localTag? s.tag = none := by
      rw [Option.isNone_iff_eq_none.mp hv]
      rfl
    have hvalue : (scalar s).value = .ok w := by
      rw [value, hlocal, hr]
      exact hw
    rw [Resolved.readScalarText_of_node hw, readScalarText, hvalue]
    cases r <;> cases hw <;> rfl
  · rw [readScalarText_seq, readScalarText_seq]
  · rw [readScalarText_map, readScalarText_map]

end Node

/-! ## Collections -/

theorem forall₂_of_settleItems {items items' : List Node}
    (h : Node.settleItems items = .ok items') :
    List.Forall₂ (fun v w => v.settle = .ok w) items items' := by
  induction items generalizing items' with
  | nil =>
    cases h
    exact .nil
  | cons v rest ih =>
    obtain ⟨w, hw, h⟩ := bind_eq_ok h
    obtain ⟨others, hrest, h⟩ := bind_eq_ok h
    cases h
    exact .cons hw (ih hrest)

theorem forall₂_of_settleEntries {es es' : List (Node × Node)}
    (h : Node.settleEntries es = .ok es') :
    List.Forall₂ (fun e e' => e.1.settle = .ok e'.1 ∧ e.2.settle = .ok e'.2) es es' := by
  induction es generalizing es' with
  | nil =>
    cases h
    exact .nil
  | cons e rest ih =>
    obtain ⟨k, v, others, hk, hv, hrest, rfl⟩ := (Node.settleEntries_cons_eq_ok_iff ..).mp h
    exact .cons ⟨hk, hv⟩ (ih hrest)

/-- Items that are read alike are read to the same list. -/
theorem readEach_toOption_congr {read : Node → Except DecodeError α} {items items' : List Node}
    (h : List.Forall₂ (fun v w => (read v).toOption = (read w).toOption) items items') :
    (readEach read items).toOption = (readEach read items').toOption := by
  induction h with
  | nil => rfl
  | cons hv _ ih => exact toOption_bind_congr hv fun a => toOption_bind_congr ih fun _ => rfl

/-- Two readers of one record read entries alike that have the same names, of which the known ones
are set alike and the others are skipped. -/
theorem ReadsRecord.toOption_congr {δ : Type} {known : List String}
    {setField setField' : String → Node → α → Except DecodeError α}
    {name : β → Except DecodeError String} {value : β → Node} {skip : β → Except DecodeError Unit}
    {read : List String → α → List β → Except DecodeError α}
    {name' : δ → Except DecodeError String} {value' : δ → Node}
    {skip' : δ → Except DecodeError Unit} {read' : List String → α → List δ → Except DecodeError α}
    (hr : ReadsRecord known setField name value skip read)
    (hr' : ReadsRecord known setField' name' value' skip' read') {es : List β} {es' : List δ}
    (h : List.Forall₂ (fun e e' => ∃ field, name e = .ok field ∧ name' e' = .ok field ∧
      (field ∈ known → ∀ a,
        (setField field (value e) a).toOption = (setField' field (value' e') a).toOption) ∧
      skip e = .ok () ∧ skip' e' = .ok ()) es es') (seen : List String) (a : α) :
    (read seen a es).toOption = (read' seen a es').toOption := by
  induction h generalizing seen a with
  | nil => rw [hr.nil, hr'.nil]
  | cons he _ ih =>
    obtain ⟨field, hname, hname', hset, hskip, hskip'⟩ := he
    rw [hr.cons, hr'.cons, hname, hname', ok_bind, ok_bind]
    split
    · rename_i hknown
      split
      · rfl
      · exact toOption_bind_congr (hset (by simpa using hknown) a) fun b => ih _ b
    · rw [hskip, hskip']
      exact ih seen a

/-! ## Bindings -/

/-- Whether the field of a binding is read alike finished or not. -/
def FlagBinding.readsAlike (field : String) (v : Node) : Bool :=
  if field = "name" then v.isTextual
  else
    match v with
    | .seq items => items.all Node.isTextual
    | _ => true

/-- Whether a binding with these fields is read alike finished or not. -/
def Node.bindsAlike (known : List String) : Node → Bool
  | seq _ => false
  | map es => es.all fun e => known.all fun field =>
      e.1.readFieldName.toOption != some field || FlagBinding.readsAlike field e.2
  | _ => true

namespace Node

/-- Whether the node is a value that no collection is read from, not even an empty one. -/
def isSingle : Node → Bool
  | bool _ | int _ | float _ | text _ => true
  | scalar s => !s.isVoid
  | _ => false

theorem readItems_of_isSingle {n : Node} (h : n.isSingle = true) (expected : String) :
    (n.readItems expected).toOption = none := by
  cases n with
  | scalar s =>
    have hvoid : s.isVoid = false := by simpa [isSingle] using h
    simp only [readItems, untagged, hvoid, Bool.false_eq_true, if_false]
    rfl
  | bool | int | float | text => rfl
  | null | seq | map | tagged | fault => cases h

theorem readEntries_of_isSingle {n : Node} (h : n.isSingle = true) (expected : String) :
    (n.readEntries expected).toOption = none := by
  cases n with
  | scalar s =>
    have hvoid : s.isVoid = false := by simpa [isSingle] using h
    simp only [readEntries, untagged, hvoid, Bool.false_eq_true, if_false]
    rfl
  | bool | int | float | text => rfl
  | null | seq | map | tagged | fault => cases h

/-- A scalar that stands for something is a single value. -/
theorem isSingle_of_resolve {s : Scalar} (htag : s.tag = none) {r : Resolved}
    (hr : s.resolve = .ok r) (hne : r ≠ .null) : (scalar s).isSingle = true := by
  rw [Scalar.resolve_untagged htag] at hr
  have hr := Except.ok.inj hr
  refine (Bool.not_eq_true' _).mpr (Bool.eq_false_iff.mpr fun hvoid => ?_)
  obtain ⟨hplain, hempty⟩ := Bool.and_eq_true_iff.mp hvoid
  rw [if_pos hplain, (resolvePlain_eq_null_iff s.text).mpr (by rw [hempty, Bool.true_or])] at hr
  exact hne hr.symm

theorem isAtom_of_node {r : Resolved} (hne : r ≠ .null) {w : Node} (hw : r.node = .ok w) :
    w.isAtom = true ∧ w ≠ .null := by
  cases r with
  | null => exact absurd rfl hne
  | wide => cases hw
  | bool | int | float | text =>
    cases hw
    exact ⟨rfl, nofun⟩

end Node

/-- An atom that is there is read. -/
theorem Shape.readUnlessAbsent_atom (absent : α) (read : Node → Except DecodeError α) {n : Node}
    (h : n.isAtom = true) (hne : n ≠ .null) : readUnlessAbsent absent read n = read n := by
  cases n with
  | null => exact absurd rfl hne
  | bool | int | float | text => rfl
  | scalar | seq | map | tagged | fault => cases h

/-- A collection that may be absent is read alike finished or not if it is so when it is there. -/
theorem Shape.readUnlessAbsent_settled {absent : α} {read read' : Node → Except DecodeError α}
    (hsingle : ∀ n : Node, n.isSingle = true → (read n).toOption = none)
    (hsingle' : ∀ n : Node, n.isSingle = true → (read' n).toOption = none) {v w : Node}
    (hv : v.isValue = true) (h : v.settle = .ok w)
    (hcollection : v.IsCollection → (read v).toOption = (read' w).toOption) :
    (readUnlessAbsent absent read v).toOption = (readUnlessAbsent absent read' w).toOption := by
  have hatom {n : Node} (ha : n.isAtom = true) (hne : n ≠ .null) : n.isSingle = true := by
    cases n with
    | null => exact absurd rfl hne
    | bool | int | float | text => rfl
    | scalar | seq | map | tagged | fault => cases ha
  rcases Node.settle_cases h with ⟨rfl, ha⟩ | ⟨s, r, rfl, -, hr, hw⟩ |
    ⟨items, items', rfl, rfl, -⟩ | ⟨es, es', rfl, rfl, -⟩
  · by_cases hnull : v = .null
    · subst hnull
      rfl
    · rw [readUnlessAbsent_atom _ _ ha hnull, readUnlessAbsent_atom _ _ ha hnull,
        hsingle v (hatom ha hnull), hsingle' v (hatom ha hnull)]
  · have htag : s.tag = none := Option.isNone_iff_eq_none.mp hv
    have habsent := Scalar.isAbsent_untagged htag hr
    by_cases hnull : r = .null
    · subst hnull
      cases hw
      rw [readUnlessAbsent, Node.readOptional, habsent]
      rfl
    · obtain ⟨ha, hne⟩ := Node.isAtom_of_node hnull hw
      have hpresent : (Node.scalar s).readOptional = .ok (some (.scalar s)) := by
        rw [Node.readOptional, habsent, beq_false_of_ne hnull]
        rfl
      rw [readUnlessAbsent_atom _ _ ha hne, hsingle' w (hatom ha hne), readUnlessAbsent, hpresent,
        ok_bind]
      exact hsingle _ (Node.isSingle_of_resolve htag hr hnull)
  · exact hcollection (.seq _)
  · exact hcollection (.map _)

theorem setFlagField_settled (field : String) {v w : Node} (hv : v.isValue = true)
    (h : v.settle = .ok w) (halike : FlagBinding.readsAlike field v = true) (f : FlagBinding) :
    (setFlagField field v f).toOption = (setFlagField field w f).toOption := by
  unfold FlagBinding.readsAlike at halike
  by_cases hname : field = "name"
  · subst hname
    rw [if_pos rfl] at halike
    exact toOption_bind_congr (Node.readString_settled h halike) fun _ => rfl
  · let readAliases (v : Node) := v.readItems "a sequence" >>= readEach Node.readString
    have hset (v : Node) : setFlagField field v f =
        Shape.readUnlessAbsent [] readAliases v >>= fun aliases => .ok { f with aliases } := by
      rw [← Shape.store_unlessAbsent [] readAliases
        (fun aliases : List String => ({ f with aliases } : FlagBinding)) v]
      unfold setFlagField
      rw [beq_false_of_ne hname]
      refine bind_congr fun v? => ?_
      cases v? with
      | none => rfl
      | some v => exact (bind_assoc ..).symm
    rw [hset, hset]
    refine toOption_bind_congr ?_ fun _ => rfl
    have hsingle (n : Node) (hn : n.isSingle = true) : (readAliases n).toOption = none :=
      toOption_bind_of_none (Node.readItems_of_isSingle hn _) _
    refine Shape.readUnlessAbsent_settled hsingle hsingle hv h fun hcollection => ?_
    rw [if_neg hname] at halike
    rcases Node.settle_cases h with ⟨rfl, -⟩ | ⟨s, r, rfl, -, -, -⟩ |
      ⟨items, items', rfl, rfl, hi⟩ | ⟨_, _, rfl, rfl, -⟩
    · rfl
    · cases hcollection
    · refine readEach_toOption_congr ?_
      have htext : ∀ v ∈ items, v.isTextual = true := List.all_eq_true.mp halike
      refine ((List.forall₂_and_left _ _).mpr ⟨htext, forall₂_of_settleItems hi⟩).imp ?_
      exact fun v w hvw => Node.readString_settled hvw.2 hvw.1
    · rfl

/-- A binding that is no sequence is read alike finished or not if its fields are. -/
theorem readBinding_settled (expected : String) {known : List String}
    {setField : String → Node → α → Except DecodeError α} {start absent : α}
    (hset : ∀ field ∈ known, ∀ {v w : Node}, v.isValue = true → v.settle = .ok w →
      FlagBinding.readsAlike field v = true →
      ∀ a, (setField field v a).toOption = (setField field w a).toOption)
    {v w : Node} (hv : v.all Node.isValue = true) (h : v.settle = .ok w)
    (halike : v.bindsAlike known = true) :
    (Shape.readUnlessAbsent absent (readBinding .direct expected known setField start)
        v).toOption =
      (Shape.readUnlessAbsent absent (readBinding .collected expected known setField start)
        w).toOption := by
  have hsingle (source : FieldSource) (n : Node) (hn : n.isSingle = true) :
      (readBinding source expected known setField start n).toOption = none := by
    have hread : readBinding source expected known setField start n =
        n.readEntries expected >>= readFields known setField [] start := by
      cases n with
      | bool | int | float | text | scalar => cases source <;> rfl
      | null | seq | map | tagged | fault => cases hn
    rw [hread]
    exact toOption_bind_of_none (Node.readEntries_of_isSingle hn _) _
  refine Shape.readUnlessAbsent_settled (hsingle .direct) (hsingle .collected) (Node.all_self hv) h
    fun hcollection => ?_
  rcases Node.settle_cases h with ⟨rfl, ha⟩ | ⟨s, r, rfl, -, -, -⟩ | ⟨items, items', rfl, rfl, -⟩ |
    ⟨es, es', rfl, rfl, hes⟩
  · cases hcollection <;> cases ha
  · cases hcollection
  · cases halike
  · obtain ⟨hkeys, hvalues⟩ := Bool.and_eq_true_iff.mp hv
    have hkeys := List.all_eq_true.mp hkeys
    have hvalues := (Node.allEntries_iff ..).mp hvalues
    have halike := List.all_eq_true.mp halike
    refine (readFields_readsRecord known setField).toOption_congr
      (readNumbered_readsRecord known setField) ?_ [] start
    have hall : ∀ e ∈ es, e.1.isStringKey = true ∧ e.2.isValue = true ∧
        ∀ field ∈ known, e.1.readFieldName = .ok field →
          FlagBinding.readsAlike field e.2 = true := by
      intro e he
      refine ⟨hkeys e he, Node.all_self (hvalues e he).2, fun field hfield hname => ?_⟩
      have := List.all_eq_true.mp (halike e he) field hfield
      simpa [hname, Except.toOption] using this
    refine ((List.forall₂_and_left _ _).mpr ⟨hall, forall₂_of_settleEntries hes⟩).imp ?_
    rintro e e' ⟨⟨hkey, hvalue, hfields⟩, hk, hv⟩
    obtain ⟨field, hname⟩ := Node.isString_of_isStringKey hkey
    have hkey' : e'.1 = .text field := Except.ok.inj (hk.symm.trans hname)
    refine ⟨field, hname.readFieldName, by rw [hkey']; rfl, fun hknown a => ?_,
      Node.skip_of_settle hv, rfl⟩
    exact hset field hknown hvalue hv (hfields field hknown hname.readFieldName) a

/-! ## Options -/

/-- Whether the field of an option is read alike finished or not. -/
def OptionSpec.readsAlike (field : String) (v : Node) : Bool :=
  match field with
  | "name" | "type" => v.isTextual
  | "description" | "usage" => v.isTextualOrNull
  | "env" => v.bindsAlike ["name"]
  | "flag" => v.bindsAlike ["name", "aliases"]
  | _ => true

theorem OptionSpec.setField_settled {field : String} (hfield : field ∈ fieldNames) {v w : Node}
    (hv : v.all Node.isValue = true) (h : v.settle = .ok w) (halike : readsAlike field v = true)
    (o : OptionSpec) :
    (setField .direct field v o).toOption = (setField .collected field w o).toOption := by
  have hvalue : v.isValue = true := Node.all_self hv
  simp only [fieldNames, List.mem_cons, List.not_mem_nil, or_false] at hfield
  rcases hfield with rfl | rfl | rfl | rfl | rfl | rfl | rfl | rfl
  · exact toOption_bind_congr (Node.readString_settled h halike) fun _ => rfl
  · exact toOption_bind_congr (Node.readString_settled h halike) fun _ => rfl
  · exact toOption_bind_congr (Node.readOptionalString_settled hvalue h halike) fun _ => rfl
  · exact toOption_bind_congr (Node.readOptionalString_settled hvalue h halike) fun _ => rfl
  · have hset (source : FieldSource) (v : Node) : setField source "env" v o =
        Shape.readUnlessAbsent "" (readEnv source) v >>= fun env => .ok { o with env } :=
      Shape.store_unlessAbsent "" (readEnv source)
        (fun env : String => ({ o with env } : OptionSpec)) v
    rw [hset, hset]
    refine toOption_bind_congr ?_ fun _ => rfl
    refine readBinding_settled "struct EnvBinding" (fun field hfield => ?_) hv h halike
    obtain rfl := List.mem_singleton.mp hfield
    exact fun _ hw halike _ => Node.readString_settled hw halike
  · have hset (source : FieldSource) (v : Node) : setField source "flag" v o =
        Shape.readUnlessAbsent {} (readFlag source) v >>= fun flag => .ok { o with flag } :=
      Shape.store_unlessAbsent ({} : FlagBinding) (readFlag source)
        (fun flag : FlagBinding => ({ o with flag } : OptionSpec)) v
    rw [hset, hset]
    refine toOption_bind_congr ?_ fun _ => rfl
    exact readBinding_settled "struct FlagBinding" (fun field _ => setFlagField_settled field) hv h
      halike
  · exact toOption_bind_congr (Node.readScalarText_settled hvalue h) fun _ => rfl
  · exact toOption_bind_congr (Node.readBool_settled hvalue h) fun _ => rfl

end CommandSpec
