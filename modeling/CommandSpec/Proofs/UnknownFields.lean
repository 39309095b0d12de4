import CommandSpec.Load
import CommandSpec.Proofs.Places
import CommandSpec.Proofs.PlainScalars

/-! Fields that no record has. A record in a document is read as if they were not there, but what
they hold is looked at: a reader that skips a value still meets the faults in it, and option
entries collect their fields as finished values first. So an unknown field is ignored unless it
stands in an option, or in a binding of one, and holds something that cannot be finished
(`Document.unknown_field_ignored_iff`). -/
namespace CommandSpec

/-! ## What is looked at -/

namespace Node

mutual

/-- Whether a node and all that it holds, keys among them, have the property. -/
def all (p : Node → Bool) : Node → Bool
  | seq items => p (seq items) && allItems p items
  | map entries => p (map entries) && allEntries p entries
  | tagged tag content => p (tagged tag content) && content.all p
  | n => p n

def allItems (p : Node → Bool) : List Node → Bool
  | [] => true
  | n :: rest => n.all p && allItems p rest

def allEntries (p : Node → Bool) : List (Node × Node) → Bool
  | [] => true
  | (k, v) :: rest => k.all p && v.all p && allEntries p rest

end

/-- Whether a reader that skips the node gets past it. -/
def isPassable : Node → Bool
  | fault f => !f.endsSource
  | _ => true

/-- Whether the node by itself can be kept as a finished value: it is no fault and has no local
tag, and of a scalar the text fits the tag and is no integer beyond 64 bits. -/
def isKeepable : Node → Bool
  | scalar s => (Yaml.Scalar.localTag? s.tag).isNone && (s.resolve.bind (·.node)).toOption.isSome
  | tagged _ _ | fault _ => false
  | _ => true

/-- A finished value without parts. -/
def isAtom : Node → Bool
  | null | bool _ | int _ | float _ | text _ => true
  | scalar _ | seq _ | map _ | tagged _ _ | fault _ => false

theorem all_self {p : Node → Bool} {n : Node} (h : n.all p = true) : p n = true := by
  cases n <;> simp_all [all]

theorem allEntries_iff (p : Node → Bool) (es : List (Node × Node)) :
    allEntries p es = true ↔ ∀ e ∈ es, e.1.all p = true ∧ e.2.all p = true := by
  induction es with
  | nil => simp [allEntries]
  | cons e rest ih => simp [allEntries, ih]

mutual

theorem all_and (p q : Node → Bool) : ∀ n : Node,
    n.all (fun m => p m && q m) = (n.all p && n.all q)
  | seq items => by
    simp only [all, allItems_and p q items]
    ac_rfl
  | map entries => by
    simp only [all, allEntries_and p q entries]
    ac_rfl
  | tagged tag content => by
    simp only [all, all_and p q content]
    ac_rfl
  | null | bool _ | int _ | float _ | text _ | scalar _ | fault _ => by simp [all]

theorem allItems_and (p q : Node → Bool) : ∀ items : List Node,
    allItems (fun m => p m && q m) items = (allItems p items && allItems q items)
  | [] => rfl
  | n :: rest => by
    simp only [allItems, all_and p q n, allItems_and p q rest]
    ac_rfl

theorem allEntries_and (p q : Node → Bool) : ∀ entries : List (Node × Node),
    allEntries (fun m => p m && q m) entries = (allEntries p entries && allEntries q entries)
  | [] => rfl
  | (k, v) :: rest => by
    simp only [allEntries, all_and p q k, all_and p q v, allEntries_and p q rest]
    ac_rfl

end

mutual

theorem skip_ok_iff : ∀ n : Node, n.skip = .ok () ↔ n.all isPassable = true
  | seq items => by simpa [skip, all, isPassable] using skipItems_ok_iff items
  | map entries => by simpa [skip, all, isPassable] using skipEntries_ok_iff entries
  | tagged tag content => by simpa [skip, all, isPassable] using content.skip_ok_iff
  | fault f => by cases h : f.endsSource <;> simp [skip, all, isPassable, h]
  | null | bool _ | int _ | float _ | text _ | scalar _ => by simp [skip, all, isPassable]

theorem skipItems_ok_iff : ∀ items : List Node,
    skipItems items = .ok () ↔ allItems isPassable items = true
  | [] => by simp [skipItems, allItems]
  | n :: rest => by
    rw [skipItems, allItems, Bool.and_eq_true, ← n.skip_ok_iff, ← skipItems_ok_iff rest]
    cases n.skip <;> simp

theorem skipEntries_ok_iff : ∀ entries : List (Node × Node),
    skipEntries entries = .ok () ↔ allEntries isPassable entries = true
  | [] => by simp [skipEntries, allEntries]
  | (k, v) :: rest => by
    rw [skipEntries, allEntries, Bool.and_eq_true, Bool.and_eq_true, ← k.skip_ok_iff,
      ← v.skip_ok_iff, ← skipEntries_ok_iff rest]
    cases k.skip <;> cases v.skip <;> simp

end

mutual

theorem settle_ok_iff : ∀ n : Node, (∃ v, n.settle = .ok v) ↔ n.all isKeepable = true
  | seq items => by
    simp only [settle, all, isKeepable, Bool.true_and, ← settleItems_ok_iff items]
    cases settleItems items <;> simp [Except.map]
  | map entries => by
    simp only [settle, all, isKeepable, Bool.true_and, ← settleEntries_ok_iff entries]
    cases settleEntries entries <;> simp [Except.map]
  | tagged tag content => by simp [settle, all, isKeepable]
  | fault f => by simp [settle, all, isKeepable]
  | scalar s => by
    simp only [settle, all, isKeepable, Bool.and_eq_true, isSome_toOption_iff]
    cases Yaml.Scalar.localTag? s.tag <;> simp
  | null | bool _ | int _ | float _ | text _ => by simp [settle, all, isKeepable]

theorem settleItems_ok_iff : ∀ items : List Node,
    (∃ vs, settleItems items = .ok vs) ↔ allItems isKeepable items = true
  | [] => by simp [settleItems, allItems]
  | n :: rest => by
    rw [settleItems, allItems, Bool.and_eq_true, ← n.settle_ok_iff, ← settleItems_ok_iff rest]
    cases n.settle <;> cases settleItems rest <;> simp [pure, Except.pure]

theorem settleEntries_ok_iff : ∀ entries : List (Node × Node),
    (∃ es, settleEntries entries = .ok es) ↔ allEntries isKeepable entries = true
  | [] => by simp [settleEntries, allEntries]
  | (k, v) :: rest => by
    rw [settleEntries, allEntries, Bool.and_eq_true, Bool.and_eq_true, ← k.settle_ok_iff,
      ← v.settle_ok_iff, ← settleEntries_ok_iff rest]
    cases k.settle <;> cases v.settle <;> cases settleEntries rest <;> simp [pure, Except.pure]

end

/-- What can be kept can be skipped. -/
theorem skip_of_settle {v w : Node} (h : v.settle = .ok w) : v.skip = .ok () := by
  have hkeep : v.all isKeepable = true := v.settle_ok_iff.mp ⟨w, h⟩
  have hboth := all_and isKeepable isPassable v
  have hsame : (fun n => n.isKeepable && n.isPassable) = isKeepable := by
    funext n
    cases n with
    | scalar s => exact Bool.and_true _
    | _ => rfl
  rw [hsame, hkeep, Bool.true_and] at hboth
  exact v.skip_ok_iff.mpr hboth.symm

/-- Scalars are resolved, and collections finished part by part. -/
theorem settle_cases {v w : Node} (h : v.settle = .ok w) :
    (v = w ∧ v.isAtom = true) ∨
      (∃ s r, v = .scalar s ∧ Yaml.Scalar.localTag? s.tag = none ∧ s.resolve = .ok r ∧
        r.node = .ok w) ∨
      (∃ items items', v = .seq items ∧ w = .seq items' ∧ settleItems items = .ok items') ∨
      ∃ es es', v = .map es ∧ w = .map es' ∧ settleEntries es = .ok es' := by
  cases v with
  | scalar s =>
    rw [settle] at h
    cases htag : Yaml.Scalar.localTag? s.tag with
    | some tag =>
      rw [htag] at h
      cases h
    | none =>
      rw [htag] at h
      obtain ⟨r, hr, hw⟩ := bind_eq_ok h
      exact Or.inr (Or.inl ⟨s, r, rfl, htag, hr, hw⟩)
  | seq items =>
    obtain ⟨items', hitems, rfl⟩ := map_eq_ok h
    exact Or.inr (Or.inr (Or.inl ⟨items, items', rfl, rfl, hitems⟩))
  | map es =>
    obtain ⟨es', hes, rfl⟩ := map_eq_ok h
    exact Or.inr (Or.inr (Or.inr ⟨es, es', rfl, rfl, hes⟩))
  | tagged | fault => cases h
  | null | bool | int | float | text =>
    cases h
    exact Or.inl ⟨rfl, rfl⟩

end Node

/-! ## Keys -/

/-- A scalar that is read as a text is read as its own. -/
theorem Yaml.Scalar.eq_text_of_resolve {s : Scalar} {t : String} (h : s.resolve = .ok (.text t)) :
    t = s.text := by
  have hplain (h : resolvePlain s.text = .text t) : t = s.text := by
    rcases resolvePlain_cases s.text with hr | ⟨b, hr⟩ | ⟨i, -, hr⟩ | ⟨i, hr⟩ | ⟨x, hr⟩ | hr
    all_goals
      rw [hr] at h
      cases h
    rfl
  unfold resolve at h
  cases htag : s.tag with
  | none =>
    simp only [htag] at h
    split at h
    · exact hplain (Except.ok.inj h)
    · cases h
      rfl
  | some tag =>
    simp only [htag] at h
    split at h
    · split at h <;> cases h
    split at h
    · split at h
      · rename_i r hr
        cases h
        rcases resolveInteger?_eq_some hr with ⟨i, -, hr⟩ | ⟨i, hr⟩ <;> cases hr
      · cases h
    split at h
    · split at h <;> cases h
    split at h
    · split at h <;> cases h
    split at h
    · exact hplain (Except.ok.inj h)
    · cases h
      rfl

namespace Node

/-- The node is a string, finished or as a text writes it. -/
def IsString (n : Node) (s : String) : Prop := n.settle = .ok (.text s)

theorem IsString.readFieldName {n : Node} {s : String} (h : n.IsString s) :
    n.readFieldName = .ok s := by
  rcases settle_cases h with ⟨rfl, -⟩ | ⟨t, r, rfl, -, hr, hw⟩ | ⟨_, _, -, hw, -⟩ |
    ⟨_, _, -, hw, -⟩
  · rfl
  · cases r <;> cases hw
    exact congrArg Except.ok (Yaml.Scalar.eq_text_of_resolve hr).symm
  · cases hw
  · cases hw

end Node

/-! ## Records -/

namespace Shape

/-- The fields of a record. -/
def fields? : Shape → Option (List String)
  | document => some Document.fieldNames
  | optionApi => some ["version"]
  | components => some ["options"]
  | command => some Command.fieldNames
  | entry => some (referenceField :: OptionSpec.fieldNames)
  | env => some ["name"]
  | flag => some ["name", "aliases"]
  | commands | options | namedOptions => none

/-- Whether the fields of a record are kept as finished values before they are decoded. -/
def isCollected : Shape → Bool
  | entry | env | flag => true
  | document | optionApi | components | commands | command | options | namedOptions => false

/-- Looks at the value of an unknown field. -/
def examine (s : Shape) (v : Node) : Except DecodeError Unit :=
  if s.isCollected then v.settle >>= fun _ => .ok () else v.skip

/-- Whether an unknown field may hold the value. -/
def accepts (s : Shape) (v : Node) : Bool :=
  v.all (if s.isCollected then Node.isKeepable else Node.isPassable)

theorem examine_bind (s : Shape) (v : Node) (b : Except DecodeError α) :
    (s.examine v >>= fun _ => b) =
      if s.isCollected then v.settle >>= fun _ => b else v.skip >>= fun _ => b := by
  unfold examine
  cases s.isCollected with
  | false => rfl
  | true => exact bind_assoc ..

theorem examine_ok_iff (s : Shape) (v : Node) : s.examine v = .ok () ↔ s.accepts v = true := by
  unfold examine accepts
  cases s.isCollected with
  | false => exact v.skip_ok_iff
  | true =>
    refine Iff.trans ?_ v.settle_ok_iff
    cases v.settle <;> simp

end Shape

namespace ReadsRecord

variable {β : Type} {known : List String} {setField : String → Node → α → Except DecodeError α}
  {name : β → Except DecodeError String} {value : β → Node} {skip : β → Except DecodeError Unit}
  {read : List String → α → List β → Except DecodeError α}

/-- A field that is not known is skipped. -/
theorem unknown (hr : ReadsRecord known setField name value skip read) {field : String}
    (hfield : field ∉ known) {e : β} (he : name e = .ok field) (before after : List β)
    (seen : List String) (a a' : α) (h : read seen a (before ++ after) = .ok a') :
    read seen a (before ++ e :: after) = skip e >>= fun _ => .ok a' := by
  have hcontains : known.contains field = false := by simpa using hfield
  obtain ⟨b, past, happend⟩ := hr.append before after seen a a' h
  rw [happend] at h
  rw [happend, hr.cons, he, ok_bind, hcontains, if_neg Bool.false_ne_true, h]

end ReadsRecord

theorem readFields_unknown {known : List String}
    (setField : String → Node → α → Except DecodeError α) {field : String} (hfield : field ∉ known)
    {key : Node} (hkey : key.IsString field) (before after : List (Node × Node)) (v : Node)
    (a a' : α) (h : readFields known setField [] a (before ++ after) = .ok a') :
    readFields known setField [] a (before ++ (key, v) :: after) = v.skip >>= fun _ => .ok a' :=
  (readFields_readsRecord known setField).unknown hfield (e := (key, v)) hkey.readFieldName before
    after [] a a' h

namespace OptionEntry

theorem collect_unknown {name : String} (hname : name ≠ referenceField) {key : Node}
    (hkey : key.IsString name) (before after : List (Node × Node)) (v : Node)
    (reference : Option String) (fields : List (String × Node))
    (h : collect none (before ++ after) = .ok (reference, fields)) :
    ∃ first last, fields = first ++ last ∧
      collect none (before ++ (key, v) :: after) =
        v.settle >>= fun w => .ok (reference, first ++ (name, w) :: last) := by
  obtain ⟨past, first, happend⟩ := collect_append before after none _ h
  rw [happend] at h
  obtain ⟨⟨reference, last⟩, hlast, h⟩ := bind_eq_ok h
  cases h
  refine ⟨first, last, rfl, ?_⟩
  rw [happend, collect_cons hname hkey.readFieldName, hlast, bind_assoc]
  rfl

theorem ofNode_unknown {name : String} (hname : name ∉ referenceField :: OptionSpec.fieldNames)
    {key : Node} (hkey : key.IsString name) (before after : List (Node × Node)) (v : Node)
    (e : OptionEntry) (h : ofNode (.map (before ++ after)) = .ok e) :
    ofNode (.map (before ++ (key, v) :: after)) = v.settle >>= fun _ => .ok e := by
  simp only [List.mem_cons, not_or] at hname
  obtain ⟨hreference, hfield⟩ : name ≠ referenceField ∧ name ∉ OptionSpec.fieldNames := by
    simpa [OptionSpec.fieldNames] using hname
  rw [ofNode_map] at h
  obtain ⟨⟨reference, fields⟩, hcollected, h⟩ := bind_eq_ok h
  obtain ⟨option, hoption, h⟩ := bind_eq_ok h
  obtain ⟨first, last, rfl, hcollect⟩ :=
    collect_unknown hreference hkey before after v reference fields hcollected
  rw [ofNode_map, hcollect, bind_assoc]
  refine bind_congr fun w => ?_
  have hskip := OptionSpec.ofCollected_readsRecord.unknown hfield (e := (name, w)) rfl first last
    [] {} option hoption
  rw [ok_bind, hskip, ok_bind, ok_bind, h]

end OptionEntry

theorem settleEntries_append (before after : List (Node × Node)) :
    Node.settleEntries (before ++ after) = Node.settleEntries before >>= fun first =>
      Node.settleEntries after >>= fun last => .ok (first ++ last) := by
  induction before with
  | nil => exact (bind_pure _).symm
  | cons entry before ih =>
    obtain ⟨k, v⟩ := entry
    simp only [List.cons_append, Node.settleEntries, ih, bind_assoc]
    refine bind_congr fun k => bind_congr fun v => bind_congr fun first => ?_
    simp only [pure_bind]
    rfl

/-- Bindings whose fields were collected are read like any other record. -/
theorem readNumbered_readsRecord (fields : List String)
    (setField : String → Node → α → Except DecodeError α) :
    ReadsRecord fields setField (fun e : Node × Node => readBinding.keyName fields e.1) Prod.snd
      (fun _ => .ok ()) (readBinding.readNumbered fields setField) where
  nil _ _ := rfl
  cons seen a e rest := by
    simp only [readBinding.readNumbered, ok_bind]
    refine bind_congr fun field => ?_
    split
    · split <;> rfl
    · rfl

/-- A binding that is a map is finished as a whole, and then read field by field. -/
theorem readBinding_map (expected : String) (known : List String)
    (setField : String → Node → α → Except DecodeError α) (start absent : α)
    (entries : List (Node × Node)) :
    (Node.map entries).settle >>= Shape.readUnlessAbsent absent
        (readBinding .collected expected known setField start) =
      Node.settleEntries entries >>= readBinding.readNumbered known setField [] start := by
  rw [Node.settle]
  cases Node.settleEntries entries <;> rfl

theorem readBinding_unknown (expected : String) {fields : List String}
    {setField : String → Node → α → Except DecodeError α} {start absent : α} {name : String}
    (hname : name ∉ fields) {key : Node} (hkey : key.IsString name)
    (before after : List (Node × Node)) (v : Node) (a : α)
    (h : (Node.map (before ++ after)).settle >>= Shape.readUnlessAbsent absent
      (readBinding .collected expected fields setField start) = .ok a) :
    (Node.map (before ++ (key, v) :: after)).settle >>= Shape.readUnlessAbsent absent
      (readBinding .collected expected fields setField start) = v.settle >>= fun _ => .ok a := by
  rw [readBinding_map, settleEntries_append] at h
  obtain ⟨entries, hentries, h⟩ := bind_eq_ok h
  obtain ⟨first, hfirst, hentries⟩ := bind_eq_ok hentries
  obtain ⟨last, hlast, hentries⟩ := bind_eq_ok hentries
  cases hentries
  -- the unknown value is finished with the others, before a field is read
  have hkey : key.settle = .ok (.text name) := hkey
  have hsettle : Node.settleEntries (before ++ (key, v) :: after) =
      v.settle >>= fun w => .ok (first ++ (.text name, w) :: last) := by
    simp only [settleEntries_append, hfirst, Node.settleEntries, hkey, hlast, ok_bind]
    cases v.settle <;> rfl
  rw [readBinding_map, hsettle, bind_assoc]
  refine bind_congr fun w => ?_
  exact (readNumbered_readsRecord fields setField).unknown hname (e := (.text name, w)) rfl
    first last [] start a h

/-! ## Documents -/

namespace Shape

/-- A record is read as without the unknown field, once the value of that was looked at. -/
theorem read_unknown (s : Shape) {fields : List String} (hfields : s.fields? = some fields)
    {name : String} (hname : name ∉ fields) {key : Node} (hkey : key.IsString name)
    (before after : List (Node × Node)) (v : Node) (a : s.Result)
    (h : s.read (.map (before ++ after)) = .ok a) :
    s.read (.map (before ++ (key, v) :: after)) = s.examine v >>= fun _ => .ok a := by
  rw [examine_bind]
  cases s with
  | document =>
    cases hfields
    exact readFields_unknown Document.setField hname hkey before after v {} a h
  | optionApi =>
    cases hfields
    exact readFields_unknown (fun _ v _ => v.readScalarText) hname hkey before after v none a h
  | components =>
    cases hfields
    exact readFields_unknown (fun _ v _ => readNamedOptions v) hname hkey before after v .empty a h
  | command =>
    cases hfields
    simp only [read, Command.ofBody, Command.ofFields_eq] at h ⊢
    exact readFields_unknown Command.setField hname hkey before after v {} a h
  | entry =>
    cases hfields
    exact OptionEntry.ofNode_unknown hname hkey before after v a h
  | env =>
    cases hfields
    exact readBinding_unknown _ hname hkey before after v a h
  | flag =>
    cases hfields
    exact readBinding_unknown _ hname hkey before after v a h
  | commands | options | namedOptions => cases hfields

end Shape

/-- An unknown field in a record of a document is looked at where the record is read. -/
theorem Document.ofNode_unknown {record : Shape} {around : Node → Node}
    (place : Place record .document around) {fields : List String}
    (hrecord : record.fields? = some fields) {name : String} (hname : name ∉ fields) {key : Node}
    (hkey : key.IsString name) (before after : List (Node × Node)) (d : Document)
    (h : ofNode (around (.map (before ++ after))) = .ok d) (v : Node) :
    ofNode (around (.map (before ++ (key, v) :: after))) =
      record.examine v >>= fun _ => .ok d := by
  obtain ⟨rest, hrest⟩ := place.focus (.map _) d h
  have hread : record.read (.map (before ++ after)) >>= rest = .ok d :=
    (hrest _ (.map _)).symm.trans h
  obtain ⟨a, ha, hd⟩ := bind_eq_ok hread
  calc ofNode (around (.map (before ++ (key, v) :: after)))
      = record.read (.map (before ++ (key, v) :: after)) >>= rest := hrest _ (.map _)
    _ = record.examine v >>= fun _ => .ok d := by
        rw [record.read_unknown hrecord hname hkey before after v a ha, bind_assoc]
        exact bind_congr fun _ => hd

/-- **Unknown fields are ignored unless they cannot be kept.** A field that a record does not know
leaves what the document is decoded to as it is, whatever it holds, in a record that is decoded
field by field. In an option and its bindings it does so if all that it holds can be kept as a
finished value, and makes decoding fail otherwise. -/
theorem Document.unknown_field_ignored_iff {record : Shape} {around : Node → Node}
    (place : Place record .document around) {fields : List String}
    (hrecord : record.fields? = some fields) {name : String} (hname : name ∉ fields) {key : Node}
    (hkey : key.IsString name) (before after : List (Node × Node)) (d : Document)
    (h : ofNode (around (.map (before ++ after))) = .ok d) (v : Node) :
    ofNode (around (.map (before ++ (key, v) :: after))) = .ok d ↔
      record.accepts v = true := by
  rw [Document.ofNode_unknown place hrecord hname hkey before after d h v,
    ← record.examine_ok_iff v]
  cases record.examine v <;> simp

/-- A document with one option that has the given binding. -/
def boundOption (flag : Node) : Node :=
  .map [(.text "options", .seq [.map [(.text "name", .text "a"), (.text "flag", flag)]])]

theorem boundOption_place : Place .flag .document boundOption := by
  have hentry : Place .flag .entry fun n => .map [(.text "name", .text "a"), (.text "flag", n)] :=
    .field [(.text "name", .text "a")] [] (by decide) rfl .here
  have hoptions : Place .flag .options fun n =>
      .seq [.map [(.text "name", .text "a"), (.text "flag", n)]] := .item [] [] rfl hentry
  exact .field [] [] (by decide) rfl hoptions

theorem notedFlag_ignored :
    Place .flag .document boundOption ∧ Shape.flag.fields? = some ["name", "aliases"] ∧
      "x-note" ∉ ["name", "aliases"] ∧ Node.IsString (.text "x-note") "x-note" ∧
      Document.ofNode (boundOption (.map [(.text "name", .text "-a")])) =
        .ok { options := [.inline { name := "a", flag := { name := "-a" } }] } ∧
      Document.ofNode (boundOption (.map [(.text "name", .text "-a"),
          (.text "x-note", .map [(.text "since", .int 2)])])) =
        .ok { options := [.inline { name := "a", flag := { name := "-a" } }] } :=
  have hname : "x-note" ∉ ["name", "aliases"] := by decide
  have hkey : Node.IsString (.text "x-note") "x-note" := rfl
  have hread : Document.ofNode (boundOption (.map ([(.text "name", .text "-a")] ++ []))) =
      .ok { options := [.inline { name := "a", flag := { name := "-a" } }] } := rfl
  ⟨boundOption_place, rfl, hname, hkey, hread,
    (Document.unknown_field_ignored_iff boundOption_place rfl hname hkey
      [(.text "name", .text "-a")] [] _ hread (.map [(.text "since", .int 2)])).mpr (by decide)⟩

/-- A local tag in an unknown field stops an option from being decoded, and so does a large
integer, although neither matters in a document's own unknown fields. -/
theorem taggedNote_refused :
    Place .flag .document boundOption ∧ Shape.flag.fields? = some ["name", "aliases"] ∧
      "x-note" ∉ ["name", "aliases"] ∧
      Document.ofNode (boundOption (.map [(.text "name", .text "-a")])) =
        .ok { options := [.inline { name := "a", flag := { name := "-a" } }] } ∧
      Document.ofNode (boundOption (.map [(.text "name", .text "-a"),
          (.text "x-note", .tagged "foo" (.int 1))])) = .error .taggedField ∧
      Document.ofText "x-note: !foo 1\noptions:\n- name: a\n" =
        .ok { options := [.inline { name := "a" }] } ∧
      Document.ofText "options:\n- name: a\n  x-note: !foo 1\n" = .error .taggedField ∧
      Document.ofText "options:\n- name: a\n  x-note: 18446744073709551616\n" =
        .error (.invalidType (.wide 18446744073709551616) "any value") :=
  ⟨boundOption_place, rfl, by decide, rfl, rfl, eq_ok_of_toOption (by decide +kernel),
    eq_error_of_failure? (by decide +kernel), eq_error_of_failure? (by decide +kernel)⟩

end CommandSpec
