import CommandSpec.Load
import CommandSpec.Proofs.PlainScalars
import CommandSpec.Proofs.RecordReading
import CommandSpec.Tree.Dump

/-! Scalars that are kept as texts: the default of an option and the version of a document. A
plain scalar is resolved to a value and the value is written out again, so that what is kept is
the value's own spelling (`Node.readScalarText_plain`). That is the text in the document only if
the document spells the value in the same way (`plain_scalar_kept_iff_canonical`). -/
namespace CommandSpec
open Yaml

variable {α β : Type}

/-! ## Scalars -/

/-- The text that a value is kept as. Nothing has none, nor has an integer beyond 64 bits, which
is no finished value. -/
def Yaml.Resolved.kept? : Resolved → Option String
  | null => none
  | bool b => some (if b then "true" else "false")
  | int i => some (toString i)
  | wide _ => none
  | float x => some x.text
  | text s => some s

/-- As a plain scalar the text stands for a value that is spelled in just this way. -/
def IsCanonical (s : String) : Prop := (resolvePlain s).kept? = some s

instance : DecidablePred IsCanonical := fun s => inferInstanceAs (Decidable (_ = some s))

/-- What is kept of a finished value is its spelling. -/
theorem Yaml.Resolved.readScalarText_of_node {r : Resolved} {v : Node} (h : r.node = .ok v) :
    v.readScalarText = .ok r.kept? := by
  cases r with
  | wide i => cases h
  | _ =>
    cases h
    rfl

theorem Yaml.Resolved.node_of_kept? {r : Resolved} {t : String} (h : r.kept? = some t) :
    ∃ v, r.node = .ok v := by
  cases r with
  | wide i => cases h
  | _ => exact ⟨_, rfl⟩

namespace Node

/-- A plain scalar without a tag. -/
def plain (s : String) : Node := .scalar { text := s }

/-- A scalar in double quotes. -/
def quoted (s : String) : Node := .scalar { text := s, style := .doubleQuoted }

theorem readScalarText_quoted (s : String) : (quoted s).readScalarText = .ok (some s) := rfl

/-- A plain scalar is read as the value it stands for. -/
theorem readScalarText_plain (s : String) :
    (plain s).readScalarText = (resolvePlain s).node >>= readScalarText := by
  have hvalue : (plain s).value = (resolvePlain s).node := rfl
  unfold readScalarText
  rw [hvalue]
  cases resolvePlain s <;> rfl

theorem kept_of_readScalarText_plain {s : String} {t? : Option String}
    (h : (plain s).readScalarText = .ok t?) : t? = (resolvePlain s).kept? := by
  rw [readScalarText_plain] at h
  obtain ⟨v, hv, h⟩ := bind_eq_ok h
  rw [Resolved.readScalarText_of_node hv] at h
  exact (Except.ok.inj h).symm

/-- Quotes around a canonical text change nothing. -/
theorem readScalarText_plain_eq_quoted {s : String} (h : IsCanonical s) :
    (plain s).readScalarText = (quoted s).readScalarText := by
  obtain ⟨v, hv⟩ := Resolved.node_of_kept? h
  rw [readScalarText_plain, hv, ok_bind, Resolved.readScalarText_of_node hv, h,
    readScalarText_quoted]

end Node

/-- The canonical texts: the two words for truth values, the decimals of 64-bit integers, floats as
they are written out, and all texts that are nothing else. -/
theorem isCanonical_iff (s : String) :
    IsCanonical s ↔ s = "true" ∨ s = "false" ∨ (∃ i, fits64 i = true ∧ s = toString i) ∨
      (∃ x, resolvePlain s = .float x ∧ s = x.text) ∨ resolvePlain s = .text s := by
  constructor
  · intro h
    unfold IsCanonical at h
    rcases resolvePlain_cases s with hr | ⟨b, hr⟩ | ⟨i, hi, hr⟩ | ⟨i, hr⟩ | ⟨x, hr⟩ | hr <;>
      rw [hr] at h
    · cases h
    · cases b <;> simp only [Resolved.kept?, Option.some.injEq] at h <;> simp [← h]
    · exact Or.inr (Or.inr (Or.inl ⟨i, hi, (Option.some.inj h).symm⟩))
    · cases h
    · exact Or.inr (Or.inr (Or.inr (Or.inl ⟨x, hr, (Option.some.inj h).symm⟩)))
    · exact Or.inr (Or.inr (Or.inr (Or.inr hr)))
  · rintro (rfl | rfl | ⟨i, hi, rfl⟩ | ⟨x, hr, hs⟩ | hr)
    · decide
    · decide
    · rw [IsCanonical, resolvePlain_toString i hi]
      rfl
    · rw [IsCanonical, hr, hs]
      rfl
    · rw [IsCanonical, hr]
      rfl

/-! ## Places of a scalar -/

/-- A decoder that keeps the scalar at some place of a node as the text it spells. The result
that holds the text may be wrapped by another. -/
structure KeepsSpelling (decode : Node → Except DecodeError α) (wrap : β → α)
    (stored : β → Option String) (place : Node → Node) : Prop where
  plain : ∀ s b, decode (place (.plain s)) = .ok (wrap b) → stored b = (resolvePlain s).kept?
  quoted : ∀ s b, decode (place (.quoted s)) = .ok (wrap b) → stored b = some s
  canonical : ∀ s, IsCanonical s → decode (place (.plain s)) = decode (place (.quoted s))

/-- What such a decoder makes of the quoted text, it makes of the plain text only if that is
canonical. -/
theorem KeepsSpelling.plain_iff {decode : Node → Except DecodeError α} {wrap : β → α}
    {stored : β → Option String} {place : Node → Node}
    (hk : KeepsSpelling decode wrap stored place) {s : String} {b : β}
    (h : decode (place (.quoted s)) = .ok (wrap b)) :
    decode (place (.plain s)) = .ok (wrap b) ↔ IsCanonical s := by
  constructor
  · intro hplain
    exact (hk.plain s b hplain).symm.trans (hk.quoted s b h)
  · intro hs
    exact (hk.canonical s hs).trans h

/-- A record with a scalar among its fields. -/
def recordAround (before : List (Node × Node)) (key : Node) (after : List (Node × Node))
    (v : Node) : Node := .map (before ++ (key, v) :: after)

/-- Records that are read field by field. -/
theorem readFields_keepsSpelling (known : List String)
    (setField : String → Node → α → Except DecodeError α) (start : α) (stored : α → Option String)
    (field : String) (hfield : field ∈ known)
    (hother : ∀ other v a a', other ∈ known → other ≠ field → setField other v a = .ok a' →
      stored a' = stored a)
    (store : Option String → α → α) (hstored : ∀ t? a, stored (store t? a) = t?)
    (hset : ∀ v a, setField field v a = v.readScalarText >>= fun t? => .ok (store t? a))
    (expected : String) (before : List (Node × Node)) (key : Node) (after : List (Node × Node))
    (hkey : key.readFieldName = .ok field) :
    KeepsSpelling (fun n => n.readEntries expected >>= readFields known setField [] start) id stored
      (recordAround before key after) := by
  have hstores (v : Node) (t? : Option String)
      (hv : ∀ t?', v.readScalarText = .ok t?' → t?' = t?) (b : α)
      (h : readFields known setField [] start (before ++ (key, v) :: after) = .ok b) :
      stored b = t? := by
    refine (readFields_readsRecord known setField).stores hfield stored hother
      (e := (key, v)) hkey ?_ before after [] start b h
    intro a a' ha
    rw [hset] at ha
    obtain ⟨t?', ht, ha⟩ := bind_eq_ok ha
    cases ha
    rw [hstored, hv t?' ht]
  refine ⟨fun s b h => ?_, fun s b h => ?_, fun s hs => ?_⟩
  · exact hstores _ _ (fun t?' ht => Node.kept_of_readScalarText_plain ht) b h
  · refine hstores (.quoted s) (some s) (fun t?' ht => ?_) b h
    rw [Node.readScalarText_quoted] at ht
    exact (Except.ok.inj ht).symm
  · refine (readFields_readsRecord known setField).congr hfield hkey hkey (fun a => ?_)
      before after [] start
    rw [hset, hset, Node.readScalarText_plain_eq_quoted hs]

/-! ### Options -/

namespace OptionSpec

theorem default_mem : "default" ∈ fieldNames := by decide

theorem setField_default (source : FieldSource) (v : Node) (o : OptionSpec) :
    setField source "default" v o =
      v.readScalarText >>= fun default => .ok { o with default } := rfl

/-- Only the field of that name sets the default. -/
theorem default_of_setField (source : FieldSource) (field : String) (v : Node)
    (o o' : OptionSpec) (hne : field ≠ "default") (h : setField source field v o = .ok o') :
    o'.default = o.default := by
  unfold setField at h
  split at h
  case h_5 | h_6 =>
    obtain ⟨v?, -, h⟩ := bind_eq_ok h
    cases v? with
    | none =>
      cases h
      rfl
    | some v =>
      obtain ⟨_, -, h⟩ := bind_eq_ok h
      cases h
      rfl
  case h_7 => exact absurd rfl hne
  all_goals
    obtain ⟨_, -, h⟩ := bind_eq_ok h
    cases h
    rfl

theorem ofNode_keepsSpelling (before : List (Node × Node)) (key : Node)
    (after : List (Node × Node)) (hkey : key.readFieldName = .ok "default") :
    KeepsSpelling ofNode id (·.default) (recordAround before key after) :=
  readFields_keepsSpelling fieldNames (setField .direct) {} (·.default) "default" default_mem
    (fun other v o o' _ hne => default_of_setField .direct other v o o' hne)
    (fun default o => { o with default }) (fun _ _ => rfl) (setField_default .direct)
    "struct OptionSchema" before key after hkey

end OptionSpec

namespace OptionEntry

/-- What is collected before and after a field, and the reference. -/
structure AroundField where
  reference : Option String
  before : List (String × Node)
  after : List (String × Node)

/-- All that is collected, with the field in its place. -/
def AroundField.withField (a : AroundField) (name : String) (v : Node) :
    Option String × List (String × Node) :=
  (a.reference, a.before ++ (name, v) :: a.after)

/-- The other fields are collected alike around any finished value of one. -/
theorem collect_around {name : String} (hname : name ≠ referenceField) {key : Node}
    (hkey : key.readFieldName = .ok name) (key? : Option (Option String))
    (before after : List (Node × Node)) :
    ∃ around : Except DecodeError AroundField, ∀ v v', v.settle = .ok v' →
      collect key? (before ++ (key, v) :: after) = around.map (·.withField name v') := by
  have hfield : (name == referenceField) = false := beq_false_of_ne hname
  induction before generalizing key? with
  | nil =>
    refine ⟨(collect key? after).map fun fields => ⟨fields.1, [], fields.2⟩, fun v v' hv => ?_⟩
    simp only [List.nil_append, collect, hkey, ok_bind, hfield, hv]
    cases collect key? after <;> rfl
  | cons first before ih =>
    obtain ⟨other, w⟩ := first
    simp only [List.cons_append, collect]
    cases other.readFieldName with
    | error e => exact ⟨.error e, fun v v' hv => rfl⟩
    | ok earlier =>
      simp only [ok_bind]
      split
      · -- a reference stands once, and only its text is kept
        split
        · exact ⟨.error (.duplicateField earlier), fun v v' hv => rfl⟩
        · cases w.readOptionalString with
          | error e => exact ⟨.error e, fun v v' hv => rfl⟩
          | ok key => exact ih (some key)
      · cases w.settle with
        | error e => exact ⟨.error e, fun v v' hv => rfl⟩
        | ok w' =>
          obtain ⟨around, haround⟩ := ih key?
          refine ⟨around.map fun a => ⟨a.reference, (earlier, w') :: a.before, a.after⟩,
            fun v v' hv => ?_⟩
          rw [ok_bind, haround v v' hv]
          cases around <;> rfl

/-- A field that was collected has a finished value. -/
theorem settle_of_collect {name : String} (hname : name ≠ referenceField) {key : Node}
    (hkey : key.readFieldName = .ok name) (key? : Option (Option String))
    (before after : List (Node × Node)) (v : Node) (key?' : Option String)
    (fields : List (String × Node))
    (h : collect key? (before ++ (key, v) :: after) = .ok (key?', fields)) :
    ∃ v', v.settle = .ok v' := by
  have hfield : (name == referenceField) = false := beq_false_of_ne hname
  induction before generalizing key? fields with
  | nil =>
    simp only [List.nil_append, collect, hkey, ok_bind, hfield] at h
    obtain ⟨v', hv, -⟩ := bind_eq_ok h
    exact ⟨v', hv⟩
  | cons first before ih =>
    obtain ⟨other, w⟩ := first
    obtain ⟨earlier, -, h⟩ := bind_eq_ok h
    split at h
    · split at h
      · cases h
      · obtain ⟨key, -, h⟩ := bind_eq_ok h
        exact ih (some key) fields h
    · obtain ⟨w', -, h⟩ := bind_eq_ok h
      obtain ⟨⟨_, rest⟩, hrest, h⟩ := bind_eq_ok h
      cases h
      exact ih key? rest hrest

/-- An inline option is read from its collected fields. -/
theorem ofCollected_of_ofNode {entries : List (Node × Node)} {o : OptionSpec}
    (h : ofNode (.map entries) = .ok (inline o)) : ∃ key? fields,
      collect none entries = .ok (key?, fields) ∧ OptionSpec.ofCollected [] {} fields = .ok o := by
  have hentries : Node.readEntries (.map entries) "struct RawOptionOrReference" = .ok entries := rfl
  unfold ofNode at h
  rw [hentries, ok_bind] at h
  obtain ⟨⟨key?, fields⟩, hcollect, h⟩ := bind_eq_ok h
  obtain ⟨option, hoption, h⟩ := bind_eq_ok h
  refine ⟨key?, fields, hcollect, hoption.trans ?_⟩
  cases key? with
  | none =>
    cases h
    rfl
  | some key =>
    simp only at h
    split at h
    · cases h
      rfl
    · split at h <;> cases h

theorem ofNode_keepsSpelling (before : List (Node × Node)) (key : Node)
    (after : List (Node × Node)) (hkey : key.readFieldName = .ok "default") :
    KeepsSpelling ofNode inline (·.default) (recordAround before key after) := by
  obtain ⟨around, haround⟩ := collect_around (by decide) hkey none before after
  have hstores (v v' : Node) (t? : Option String) (o : OptionSpec)
      (hv : v.settle = .ok v') (ht : v'.readScalarText = .ok t?)
      (h : ofNode (recordAround before key after v) = .ok (inline o)) : o.default = t? := by
    obtain ⟨key?, fields, hcollect, ho⟩ := ofCollected_of_ofNode h
    rw [haround v v' hv] at hcollect
    obtain ⟨⟨_, first, last⟩, -, hfields⟩ := map_eq_ok hcollect
    cases hfields
    refine OptionSpec.ofCollected_readsRecord.stores OptionSpec.default_mem (·.default)
      (fun other v o o' _ hne => OptionSpec.default_of_setField .collected other v o o' hne)
      rfl ?_ first last [] {} o ho
    intro o o' ho
    rw [OptionSpec.setField_default, ht] at ho
    cases ho
    rfl
  refine ⟨fun s o h => ?_, fun s o h => ?_, fun s hs => ?_⟩
  · obtain ⟨_, _, hcollect, -⟩ := ofCollected_of_ofNode h
    obtain ⟨v', hv⟩ := settle_of_collect (by decide) hkey _ _ _ _ _ _ hcollect
    exact hstores _ v' _ o hv (Resolved.readScalarText_of_node hv) h
  · exact hstores _ (.text s) _ o rfl rfl h
  · obtain ⟨v', hv⟩ := Resolved.node_of_kept? hs
    have hread : v'.readScalarText = .ok (some s) := hs ▸ Resolved.readScalarText_of_node hv
    have hfields (first last : List (String × Node)) :
        OptionSpec.ofCollected [] {} (first ++ ("default", v') :: last) =
          OptionSpec.ofCollected [] {} (first ++ ("default", .text s) :: last) := by
      refine OptionSpec.ofCollected_readsRecord.congr OptionSpec.default_mem rfl rfl
        (fun o => ?_) first last [] {}
      rw [OptionSpec.setField_default, OptionSpec.setField_default, hread]
      rfl
    have hentries (v : Node) : Node.readEntries (recordAround before key after v)
        "struct RawOptionOrReference" = .ok (before ++ (key, v) :: after) := rfl
    unfold ofNode
    rw [hentries, hentries, ok_bind, ok_bind, haround (.plain s) v' hv,
      haround (.quoted s) (.text s) rfl]
    cases around with
    | error e => rfl
    | ok parts =>
      obtain ⟨key?, first, last⟩ := parts
      simp only [Except.map, AroundField.withField, ok_bind, hfields]

end OptionEntry

theorem readVersion_keepsSpelling (before : List (Node × Node)) (key : Node)
    (after : List (Node × Node)) (hkey : key.readFieldName = .ok "version") :
    KeepsSpelling readVersion id id (recordAround before key after) := by
  refine readFields_keepsSpelling ["version"] (fun _ v _ => v.readScalarText) none id "version"
    (by decide) ?_ (fun t? _ => t?) (fun _ _ => rfl) ?_ "struct OptionApi" before key after hkey
  · intro other v a a' hother hne
    exact absurd (List.mem_singleton.mp hother) hne
  · intro v a
    cases v.readScalarText <;> rfl

/-! ## Plain and quoted -/

/-- **Quotes matter unless the text is canonical.** The default of an option, in place or in an
option list, and the version of a document are what the scalar says when it is quoted. A plain
scalar with the same text is decoded alike, whatever stands around it, if it is spelled like the
value it stands for. If it is not, its spelling is lost or it is no value at all. -/
theorem plain_scalar_kept_iff_canonical (s : String) (before : List (Node × Node)) (key : Node)
    (after : List (Node × Node)) :
    (key.readFieldName = .ok "default" →
      (IsCanonical s →
        OptionSpec.ofNode (recordAround before key after (.plain s)) =
          OptionSpec.ofNode (recordAround before key after (.quoted s)) ∧
        OptionEntry.ofNode (recordAround before key after (.plain s)) =
          OptionEntry.ofNode (recordAround before key after (.quoted s))) ∧
      (∀ o, OptionSpec.ofNode (recordAround before key after (.quoted s)) = .ok o →
        o.default = some s ∧
        (OptionSpec.ofNode (recordAround before key after (.plain s)) = .ok o ↔ IsCanonical s)) ∧
      ∀ o, OptionEntry.ofNode (recordAround before key after (.quoted s)) = .ok (.inline o) →
        o.default = some s ∧
        (OptionEntry.ofNode (recordAround before key after (.plain s)) = .ok (.inline o) ↔
          IsCanonical s)) ∧
    (key.readFieldName = .ok "version" →
      (IsCanonical s →
        readVersion (recordAround before key after (.plain s)) =
          readVersion (recordAround before key after (.quoted s))) ∧
      ∀ version, readVersion (recordAround before key after (.quoted s)) = .ok version →
        version = some s ∧
        (readVersion (recordAround before key after (.plain s)) = .ok version ↔
          IsCanonical s)) := by
  constructor
  · intro hkey
    have hoption := OptionSpec.ofNode_keepsSpelling before key after hkey
    have hentry := OptionEntry.ofNode_keepsSpelling before key after hkey
    refine ⟨fun hs => ⟨hoption.canonical s hs, hentry.canonical s hs⟩, fun o ho => ?_,
      fun o ho => ?_⟩
    · exact ⟨hoption.quoted s o ho, hoption.plain_iff ho⟩
    · exact ⟨hentry.quoted s o ho, hentry.plain_iff ho⟩
  · intro hkey
    have hversion := readVersion_keepsSpelling before key after hkey
    refine ⟨hversion.canonical s, fun version hv => ?_⟩
    exact ⟨hversion.quoted s version hv, hversion.plain_iff hv⟩

/-- A default of `30` is kept, a version `1.10` is not. -/
theorem thirty_kept :
    OptionEntry.ofNode
        (recordAround [fieldNode "type" (.text "int")] (.text "default") [] (.plain "30")) =
      .ok (.inline { typeTag := "int", default := some "30" }) ∧
    readVersion (recordAround [] (.text "version") [] (.quoted "1.10")) = .ok (some "1.10") ∧
    readVersion (recordAround [] (.text "version") [] (.plain "1.10")) ≠ .ok (some "1.10") := by
  have hquoted : OptionEntry.ofNode
      (recordAround [fieldNode "type" (.text "int")] (.text "default") [] (.quoted "30")) =
      .ok (.inline { typeTag := "int", default := some "30" }) := rfl
  have hdefault := (plain_scalar_kept_iff_canonical "30" [fieldNode "type" (.text "int")]
    (.text "default") []).1 rfl
  have hversion := (plain_scalar_kept_iff_canonical "1.10" [] (.text "version") []).2 rfl
  refine ⟨(hdefault.1 (by decide +kernel)).2.trans hquoted, rfl, fun h => ?_⟩
  have hcanonical := ((hversion.2 (some "1.10") rfl).2.mp h)
  exact absurd hcanonical (by decide +kernel)

/-- The text of a document with one option, its default written as `scalar`. -/
def defaultText (scalar : String) : String :=
  "options:\n- name: port\n  default: " ++ scalar ++ "\n"

/-- The text of a document with a version, written as `scalar`. -/
def versionText (scalar : String) : String := "optionapi:\n  version: " ++ scalar ++ "\n"

/-- The document with one option of this default. -/
def withDefault (default : String) : Document where
  options := [.inline { name := "port", default := some default }]

/-- Numbers and truth values lose their spelling, and an integer beyond 64 bits is refused. -/
theorem plain_spelling_lost :
    Document.ofText (defaultText "\"0x10\"") = .ok (withDefault "0x10") ∧
      Document.ofText (defaultText "0x10") = .ok (withDefault "16") ∧
      Document.ofText (defaultText "1.50") = .ok (withDefault "1.5") ∧
      Document.ofText (defaultText "True") = .ok (withDefault "true") ∧
      Document.ofText (versionText "\"1.10\"") = .ok { version := some "1.10" } ∧
      Document.ofText (versionText "1.10") = .ok { version := some "1.1" } ∧
      Document.ofText (defaultText "18446744073709551616") =
        .error (.invalidType (.wide 18446744073709551616) "any value") :=
  ⟨eq_ok_of_toOption (by decide +kernel), eq_ok_of_toOption (by decide +kernel),
    eq_ok_of_toOption (by decide +kernel), eq_ok_of_toOption (by decide +kernel),
    eq_ok_of_toOption (by decide +kernel), eq_ok_of_toOption (by decide +kernel),
    eq_error_of_failure? (by decide +kernel)⟩

end CommandSpec
