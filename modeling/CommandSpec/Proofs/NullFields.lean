import CommandSpec.Proofs.DeclarationOrder

/-! Null where a value may be absent. Every reader of such a field gives for null what the record
starts with, be it by itself or after the field was collected (`Node.IsNull`). As the order of
fields does not matter, a null field may stand in front of the others, and there it can be left out
(`Shape.read_null_left_out`) or makes reading fail (`Shape.read_null_refused`). -/
namespace CommandSpec
open Yaml

/-! ## Scalars -/

namespace Yaml.Scalar

variable {s : Scalar} {r : Resolved}

/-- What a scalar without a tag stands for. -/
theorem resolve_untagged (htag : s.tag = none) :
    s.resolve = .ok (if s.isPlain then resolvePlain s.text else .text s.text) := by
  unfold resolve
  rw [htag]

theorem resolve_nullTag (htag : s.tag = some nullTag) :
    s.resolve = if isNullWord s.text then .ok .null
      else .error (.invalidValue (.text s.text) "null") := by
  have hother : (nullTag == boolTag) = false ∧ (nullTag == intTag) = false ∧
      (nullTag == floatTag) = false := by decide
  unfold resolve
  simp only [htag, hother, beq_self_eq_true, if_true, Bool.false_eq_true, if_false]

/-- With a tag only that of null makes a null. -/
theorem tag_of_resolve_null {tag : String} (htag : s.tag = some tag)
    (hlocal : localTag? s.tag = none) (h : s.resolve = .ok .null) : tag = nullTag := by
  unfold resolve at h
  simp only [htag] at h
  split at h
  · split at h <;> cases h
  split at h
  · split at h
    · rename_i r hr
      cases h
      rcases resolveInteger?_eq_some hr with ⟨i, -, hr⟩ | ⟨i, hr⟩ <;> cases hr
    · cases h
  split at h
  · split at h <;> cases h
  split at h
  · rename_i hnull
    exact beq_iff_eq.mp hnull
  · rw [← htag, hlocal] at h
    cases h

/-- What stands for null, and is plain, is absent where a value may be. -/
theorem isAbsent_of_resolve (hlocal : localTag? s.tag = none) (h : s.resolve = .ok r) :
    Node.scalarIsAbsent s = .ok (s.isPlain && r == .null) := by
  unfold Node.scalarIsAbsent
  cases hp : s.isPlain with
  | false => rfl
  | true =>
    simp only [Bool.not_true, Bool.false_eq_true, if_false, Bool.true_and]
    cases htag : s.tag with
    | none =>
      rw [resolve_untagged htag, hp, if_pos rfl] at h
      obtain rfl := Except.ok.inj h
      refine congrArg Except.ok ?_
      rw [Bool.eq_iff_iff, beq_iff_eq]
      exact (resolvePlain_eq_null_iff s.text).symm
    | some tag =>
      by_cases hnull : tag = nullTag
      · subst hnull
        rw [resolve_nullTag htag] at h
        simp only [beq_self_eq_true, if_true]
        split at h
        · rename_i hword
          cases h
          rw [if_pos hword]
          rfl
        · cases h
      · have hr : r ≠ .null := by
          rintro rfl
          exact hnull (tag_of_resolve_null htag hlocal h)
        simp [hnull, hr]

theorem isNullText_of_resolve (hlocal : localTag? s.tag = none) (hplain : s.isPlain = true)
    (h : s.resolve = .ok .null) : (s.text.isEmpty || isNullWord s.text) = true := by
  cases htag : s.tag with
  | none =>
    rw [resolve_untagged htag, hplain, if_pos rfl] at h
    exact (resolvePlain_eq_null_iff s.text).mp (Except.ok.inj h)
  | some tag =>
    rw [tag_of_resolve_null htag hlocal h] at htag
    rw [resolve_nullTag htag] at h
    split at h
    · rename_i hword
      rw [hword, Bool.or_true]
    · cases h

end Yaml.Scalar

/-! ## Nulls -/

namespace Node

/-- The node is null, finished or as a plain scalar of a text. -/
def IsNull (n : Node) : Prop := n.settle = .ok .null ∧ ∀ s, n = .scalar s → s.isPlain = true

/-- What a null is read as where a value may be absent. -/
theorem IsNull.cases {n : Node} (h : n.IsNull) : n = .null ∨ ∃ s, n = .scalar s ∧
    Scalar.localTag? s.tag = none ∧ s.resolve = .ok .null ∧ scalarIsAbsent s = .ok true ∧
      s.text ∈ ["", "~", "null", "Null", "NULL"] := by
  obtain ⟨hsettle, hplain⟩ := h
  rcases settle_cases hsettle with ⟨rfl, -⟩ | ⟨s, r, rfl, hlocal, hr, hw⟩ | ⟨_, _, -, hw, -⟩ |
    ⟨_, _, -, hw, -⟩
  · exact Or.inl rfl
  · cases r <;> cases hw
    have hplain : s.isPlain = true := hplain s rfl
    have habsent : scalarIsAbsent s = .ok true := by
      rw [Scalar.isAbsent_of_resolve hlocal hr, hplain]
      rfl
    have hword := Scalar.isNullText_of_resolve hlocal hplain hr
    exact Or.inr ⟨s, rfl, hlocal, hr, habsent, by simpa [isNullWord, or_assoc] using hword⟩
  · cases hw
  · cases hw

namespace IsNull

variable {n : Node}

theorem readOptional (h : n.IsNull) : n.readOptional = .ok none := by
  rcases h.cases with rfl | ⟨s, rfl, -, -, habsent, -⟩
  · rfl
  · rw [Node.readOptional, habsent]
    rfl

theorem readOptionalString (h : n.IsNull) : n.readOptionalString = .ok none := by
  rw [Node.readOptionalString, h.readOptional]
  rfl

theorem readScalarText (h : n.IsNull) : n.readScalarText = .ok none := by
  rcases h.cases with rfl | ⟨s, rfl, htag, hresolve, -⟩
  · rfl
  · have hvalue : (scalar s).value = .ok .null := by
      rw [value, htag, hresolve]
      rfl
    rw [Node.readScalarText, hvalue]
    rfl

/-- A count must be there. -/
theorem readUInt32_ne_ok (h : n.IsNull) (c : UInt32) : n.readUInt32 ≠ .ok c := by
  intro hread
  rcases h.cases with rfl | ⟨s, rfl, -, -, -, hword⟩
  · cases hread
  · have hinteger : resolveInteger? s.text = none := by
      have hwords : ∀ word ∈ ["", "~", "null", "Null", "NULL"], resolveInteger? word = none := by
        decide
      exact hwords _ hword
    simp only [Node.readUInt32, untagged, hinteger, ite_self] at hread
    cases hread

end IsNull
end Node

/-! ### Readers -/

theorem readOptionList_null {n : Node} (h : n.IsNull) : readOptionList n = .ok [] := by
  rcases h.cases with rfl | ⟨s, rfl, htag, hresolve, -⟩
  · rfl
  · simp only [readOptionList, htag, hresolve]
    rfl

theorem Commands.ofNode_null {n : Node} (h : n.IsNull) : ofNode n = .ok {} := by
  rcases h.cases with rfl | ⟨s, rfl, -, -, habsent, -⟩
  · rw [ofNode]
  · rw [ofNode, acceptVoid, habsent]
    rfl

theorem Command.ofBody_null {n : Node} (h : n.IsNull) : ofBody n = .ok {} := by
  rcases h.cases with rfl | ⟨s, rfl, -, -, habsent, -⟩
  · rw [ofBody]
  · rw [ofBody, acceptVoid, habsent]
    rfl

theorem readNamedOptions_null {n : Node} (h : n.IsNull) : readNamedOptions n = .ok .empty := by
  rw [readNamedOptions, h.readOptional]
  rfl

/-! ## Fields of a record -/

namespace ReadsRecord

variable {α β : Type} {known : List String} {setField : String → Node → α → Except DecodeError α}
  {name : β → Except DecodeError String} {value : β → Node} {skip : β → Except DecodeError Unit}
  {read : List String → α → List β → Except DecodeError α}

/-- A field that would be set to what is there already can be left out. -/
theorem cons_left_out (hr : ReadsRecord known setField name value skip read) {field : String}
    (hfield : field ∈ known) {e : β} (he : name e = .ok field) {a : α}
    (hset : setField field (value e) a = .ok a) {es : List β}
    (hes : ∀ e ∈ es, name e ≠ .ok field) : read [] a (e :: es) = read [] a es := by
  rw [hr.cons, he, ok_bind, if_pos (by simpa using hfield), if_neg (by simp), hset, ok_bind]
  refine hr.seen_congr es (fun e hmem other hother => ?_) a
  have hne : other ≠ field := fun h => hes e hmem (h ▸ hother)
  simp [hne]

/-- A field that cannot be set makes reading fail. -/
theorem cons_refused (hr : ReadsRecord known setField name value skip read) {field : String}
    (hfield : field ∈ known) {e : β} (he : name e = .ok field) {a : α}
    (hset : ∀ b, setField field (value e) a ≠ .ok b) (es : List β) (seen : List String) (b : α) :
    read seen a (e :: es) ≠ .ok b := by
  rw [hr.cons, he, ok_bind, if_pos (by simpa using hfield)]
  split
  · nofun
  · intro h
    obtain ⟨c, hc, -⟩ := bind_eq_ok h
    exact hset c hc

end ReadsRecord

namespace Shape

/-- The fields for which null is as good as nothing. -/
def tolerant : Shape → List String
  | document => ["optionapi", "options", "commands", "components"]
  | optionApi => ["version"]
  | components => ["options"]
  | command => ["usage", "description", "options", "commands"]
  | entry => [referenceField, "description", "usage", "env", "flag", "default"]
  | flag => ["aliases"]
  | commands | options | namedOptions | env => []

/-- The fields that hold something whenever they stand. -/
def strict : Shape → List String
  | document | command => ["minArgs", "maxArgs"]
  | entry => ["name", "type", "required"]
  | env | flag => ["name"]
  | optionApi | components | commands | options | namedOptions => []

/-- The field that a key stands for in a record. In a binding the number of a field is its key
too. -/
def fieldOf? (s : Shape) (key : Node) : Option String :=
  match s with
  | env => (key.settle >>= readBinding.keyName ["name"]).toOption
  | flag => (key.settle >>= readBinding.keyName ["name", "aliases"]).toOption
  | _ => key.readFieldName.toOption

/-- The entries of a record without those of a field. -/
def leaveOut (s : Shape) (field : String) (es : List (Node × Node)) : List (Node × Node) :=
  es.filter fun e => s.fieldOf? e.1 != some field

theorem leaveOut_append (s : Shape) (field : String) (before after : List (Node × Node)) :
    s.leaveOut field (before ++ after) = s.leaveOut field before ++ s.leaveOut field after :=
  List.filter_append ..

theorem leaveOut_cons_self {s : Shape} {field : String} {e : Node × Node}
    (he : s.fieldOf? e.1 = some field) (rest : List (Node × Node)) :
    s.leaveOut field (e :: rest) = s.leaveOut field rest :=
  List.filter_cons_of_neg (by simpa using he)

theorem leaveOut_cons_other {s : Shape} {field : String} {e : Node × Node}
    (he : s.fieldOf? e.1 ≠ some field) (rest : List (Node × Node)) :
    s.leaveOut field (e :: rest) = e :: s.leaveOut field rest :=
  List.filter_cons_of_pos (by simpa using he)

theorem fieldOf?_of_mem_leaveOut {s : Shape} {field : String} {es : List (Node × Node)}
    {e : Node × Node} (h : e ∈ s.leaveOut field es) : s.fieldOf? e.1 ≠ some field := by
  simpa using (List.mem_filter.mp h).2

end Shape

/-! ### Option entries -/

namespace OptionEntry

/-- Without a reference it is the same whether one was set to null or not. -/
theorem collect_some_none {es : List (Node × Node)}
    (hes : ∀ e ∈ es, e.1.readFieldName ≠ .ok referenceField) :
    collect (some none) es = collect none es := by
  induction es with
  | nil => rfl
  | cons e rest ih =>
    obtain ⟨hhead, hrest⟩ := List.forall_mem_cons.mp hes
    obtain ⟨key, v⟩ := e
    cases hname : key.readFieldName with
    | error e => simp only [collect, hname, error_bind]
    | ok name =>
      have hne : name ≠ referenceField := fun h => hhead (h ▸ hname)
      rw [collect_cons hne hname, collect_cons hne hname, ih hrest]

/-- Collected fields are named by their keys. -/
theorem name_of_mem_collect {key? : Option (Option String)} {es : List (Node × Node)}
    {reference : Option String} {fields : List (String × Node)}
    (h : collect key? es = .ok (reference, fields)) {f : String × Node} (hf : f ∈ fields) :
    ∃ e ∈ es, e.1.readFieldName = .ok f.1 := by
  induction es generalizing key? fields with
  | nil =>
    cases h
    cases hf
  | cons e rest ih =>
    rcases (collect_cons_eq_ok_iff ..).mp h with ⟨-, -, key, -, hrest⟩ |
      ⟨name, v, others, hname, -, -, hrest, rfl⟩
    · obtain ⟨e', he', hname⟩ := ih hrest hf
      exact ⟨e', List.mem_cons_of_mem _ he', hname⟩
    · rcases List.mem_cons.mp hf with rfl | hf
      · exact ⟨e, List.mem_cons_self .., hname⟩
      · obtain ⟨e', he', hname⟩ := ih hrest hf
        exact ⟨e', List.mem_cons_of_mem _ he', hname⟩

theorem ofNode_null_left_out {field : String} (hfield : field ∈ Shape.entry.tolerant)
    {key n : Node} (hkey : key.readFieldName = .ok field) (hn : n.IsNull)
    {es : List (Node × Node)} (hes : ∀ e ∈ es, e.1.readFieldName ≠ .ok field) :
    ofNode (.map ((key, n) :: es)) = ofNode (.map es) := by
  rw [ofNode_map, ofNode_map]
  by_cases href : field = referenceField
  · subst href
    have hcollect : collect none ((key, n) :: es) = collect (some none) es := by
      simp only [collect, hkey, hn.readOptionalString, ok_bind, beq_self_eq_true, if_true,
        Option.isSome_none, Bool.false_eq_true, if_false]
    rw [hcollect, collect_some_none hes]
  · obtain ⟨hknown, hset⟩ : field ∈ OptionSpec.fieldNames ∧
        OptionSpec.setField .collected field .null {} = .ok {} := by
      simp only [Shape.tolerant, List.mem_cons, List.not_mem_nil, or_false, href,
        false_or] at hfield
      rcases hfield with rfl | rfl | rfl | rfl | rfl <;> exact ⟨by decide, rfl⟩
    rw [collect_cons href hkey, hn.1, ok_bind, bind_assoc]
    refine bind_congr_ok _ _ _ fun collected hcollect => ?_
    obtain ⟨reference, fields⟩ := collected
    have hfields : ∀ f ∈ fields, (Except.ok f.1 : Except DecodeError String) ≠ .ok field := by
      intro f hf hname
      obtain ⟨e, he, hread⟩ := name_of_mem_collect hcollect hf
      exact hes e he (hread.trans hname)
    rw [ok_bind, OptionSpec.ofCollected_readsRecord.cons_left_out hknown (e := (field, .null)) rfl
      hset hfields]

theorem ofNode_null_refused {field : String} (hfield : field ∈ Shape.entry.strict) {key n : Node}
    (hkey : key.readFieldName = .ok field) (hn : n.IsNull) (es : List (Node × Node))
    (entry : OptionEntry) : ofNode (.map ((key, n) :: es)) ≠ .ok entry := by
  obtain ⟨href, hknown, hset⟩ : field ≠ referenceField ∧ field ∈ OptionSpec.fieldNames ∧
      ∀ o, OptionSpec.setField .collected field .null {} ≠ .ok o := by
    simp only [Shape.strict, List.mem_cons, List.not_mem_nil, or_false] at hfield
    rcases hfield with rfl | rfl | rfl <;> exact ⟨by decide, by decide, nofun⟩
  rw [ofNode_map, collect_cons href hkey, hn.1, ok_bind]
  intro h
  obtain ⟨collected, hcollected, h⟩ := bind_eq_ok h
  obtain ⟨⟨reference, fields⟩, -, hcollected⟩ := bind_eq_ok hcollected
  cases hcollected
  obtain ⟨option, hoption, -⟩ := bind_eq_ok h
  exact OptionSpec.ofCollected_readsRecord.cons_refused hknown (e := (field, .null)) rfl hset fields
    [] option hoption

end OptionEntry

/-! ### Bindings -/

/-- Finished keys are those of the entries. -/
theorem Node.key_of_mem_settleEntries {es fields : List (Node × Node)}
    (h : settleEntries es = .ok fields) {f : Node × Node} (hf : f ∈ fields) :
    ∃ e ∈ es, e.1.settle = .ok f.1 := by
  induction es generalizing fields with
  | nil =>
    cases h
    cases hf
  | cons e rest ih =>
    obtain ⟨k, v, others, hk, -, hrest, rfl⟩ := (settleEntries_cons_eq_ok_iff ..).mp h
    rcases List.mem_cons.mp hf with rfl | hf
    · exact ⟨e, List.mem_cons_self .., hk⟩
    · obtain ⟨e', he', hk⟩ := ih hrest hf
      exact ⟨e', List.mem_cons_of_mem _ he', hk⟩

/-- A null in a binding is finished with the other fields. -/
theorem settleEntries_null {α : Type} {key n k : Node} (hkey : key.settle = .ok k) (hn : n.IsNull)
    (es : List (Node × Node)) (rest : List (Node × Node) → Except DecodeError α) :
    Node.settleEntries ((key, n) :: es) >>= rest =
      Node.settleEntries es >>= fun fields => rest ((k, .null) :: fields) := by
  rw [Node.settleEntries, hkey, ok_bind, hn.1, ok_bind, bind_assoc]
  rfl

theorem readBinding_null_left_out {α : Type} (expected : String) {known : List String}
    {setField : String → Node → α → Except DecodeError α} {start absent : α} {field : String}
    (hfield : field ∈ known) (hset : setField field .null start = .ok start) {key n : Node}
    (hkey : key.settle >>= readBinding.keyName known = .ok field) (hn : n.IsNull)
    {es : List (Node × Node)}
    (hes : ∀ e ∈ es, e.1.settle >>= readBinding.keyName known ≠ .ok field) :
    (Node.map ((key, n) :: es)).settle >>= Shape.readUnlessAbsent absent
        (readBinding .collected expected known setField start) =
      (Node.map es).settle >>= Shape.readUnlessAbsent absent
        (readBinding .collected expected known setField start) := by
  obtain ⟨k, hk, hname⟩ := bind_eq_ok hkey
  rw [readBinding_map, readBinding_map, settleEntries_null hk hn]
  refine bind_congr_ok _ _ _ fun fields hfields => ?_
  refine (readNumbered_readsRecord known setField).cons_left_out hfield (e := (k, .null)) hname
    hset fun f hf hread => ?_
  obtain ⟨e, he, hkey⟩ := Node.key_of_mem_settleEntries hfields hf
  exact hes e he (by rw [hkey, ok_bind, hread])

theorem readBinding_null_refused {α : Type} (expected : String) {known : List String}
    {setField : String → Node → α → Except DecodeError α} {start absent : α} {field : String}
    (hfield : field ∈ known) (hset : ∀ b, setField field .null start ≠ .ok b) {key n : Node}
    (hkey : key.settle >>= readBinding.keyName known = .ok field) (hn : n.IsNull)
    (es : List (Node × Node)) (a : α) :
    (Node.map ((key, n) :: es)).settle >>= Shape.readUnlessAbsent absent
      (readBinding .collected expected known setField start) ≠ .ok a := by
  obtain ⟨k, hk, hname⟩ := bind_eq_ok hkey
  rw [readBinding_map, settleEntries_null hk hn]
  intro h
  obtain ⟨fields, -, h⟩ := bind_eq_ok h
  exact (readNumbered_readsRecord known setField).cons_refused hfield (e := (k, .null)) hname hset
    fields [] a h

/-! ### Shapes -/

theorem readFields_null_left_out {α : Type} {known : List String}
    {setField : String → Node → α → Except DecodeError α} {start : α} {field : String}
    (hfield : field ∈ known) {key n : Node} (hset : setField field n start = .ok start)
    (hkey : key.readFieldName.toOption = some field) {es : List (Node × Node)}
    (hes : ∀ e ∈ es, e.1.readFieldName.toOption ≠ some field) :
    readFields known setField [] start ((key, n) :: es) = readFields known setField [] start es :=
  (readFields_readsRecord known setField).cons_left_out hfield (e := (key, n))
    (eq_ok_of_toOption hkey) hset fun e he h => hes e he (congrArg Except.toOption h)

namespace Shape

/-- A null in front of the other fields can be left out. -/
theorem read_null_left_out (s : Shape) {field : String} (hfield : field ∈ s.tolerant)
    {key n : Node} (hkey : s.fieldOf? key = some field) (hn : n.IsNull) {es : List (Node × Node)}
    (hes : ∀ e ∈ es, s.fieldOf? e.1 ≠ some field) :
    s.read (.map ((key, n) :: es)) = s.read (.map es) := by
  cases s with
  | document =>
    simp only [tolerant, List.mem_cons, List.not_mem_nil, or_false] at hfield
    have hset : Document.setField field n {} = .ok {} := by
      rcases hfield with rfl | rfl | rfl | rfl
      · simp only [Document.setField, hn.readOptional, ok_bind]; rfl
      · simp only [Document.setField, readOptionList_null hn, ok_bind]; rfl
      · simp only [Document.setField, Commands.ofNode_null hn, ok_bind]; rfl
      · simp only [Document.setField, hn.readOptional, ok_bind]; rfl
    have hknown : field ∈ Document.fieldNames := by
      rcases hfield with rfl | rfl | rfl | rfl <;> decide
    exact readFields_null_left_out hknown hset hkey hes
  | optionApi =>
    exact readFields_null_left_out hfield hn.readScalarText hkey hes
  | components =>
    exact readFields_null_left_out hfield (readNamedOptions_null hn) hkey hes
  | command =>
    simp only [tolerant, List.mem_cons, List.not_mem_nil, or_false] at hfield
    have hset : Command.setField field n {} = .ok {} := by
      rcases hfield with rfl | rfl | rfl | rfl
      · simp [Command.setField, Declaration.setField, hn.readOptionalString]
      · simp [Command.setField, Declaration.setField, hn.readOptionalString]
      · simp [Command.setField, Declaration.setField, readOptionList_null hn]
      · simp [Command.setField, Commands.ofNode_null hn]
    have hknown : field ∈ Command.fieldNames := by
      rcases hfield with rfl | rfl | rfl | rfl <;> decide
    simp only [read, Command.ofBody, Command.ofFields_eq]
    exact readFields_null_left_out hknown hset hkey hes
  | entry =>
    exact OptionEntry.ofNode_null_left_out hfield (eq_ok_of_toOption hkey) hn fun e he h =>
      hes e he (congrArg Except.toOption h)
  | flag =>
    obtain rfl := List.mem_singleton.mp hfield
    exact readBinding_null_left_out "struct FlagBinding" (by decide) rfl (eq_ok_of_toOption hkey) hn
      fun e he h => hes e he (congrArg Except.toOption h)
  | commands | options | namedOptions | env => cases hfield

/-- A null in front of the other fields is refused. -/
theorem read_null_refused (s : Shape) {field : String} (hfield : field ∈ s.strict) {key n : Node}
    (hkey : s.fieldOf? key = some field) (hn : n.IsNull) (es : List (Node × Node)) (a : s.Result) :
    s.read (.map ((key, n) :: es)) ≠ .ok a := by
  have hcount {α : Type} (store : UInt32 → α) (b : α) :
      (n.readUInt32 >>= fun c => .ok (store c)) ≠ .ok b := by
    intro h
    obtain ⟨c, hc, -⟩ := bind_eq_ok h
    exact hn.readUInt32_ne_ok c hc
  cases s with
  | document =>
    simp only [strict, List.mem_cons, List.not_mem_nil, or_false] at hfield
    have hset : ∀ d, Document.setField field n {} ≠ .ok d := by
      rcases hfield with rfl | rfl <;> exact hcount _
    have hknown : field ∈ Document.fieldNames := by rcases hfield with rfl | rfl <;> decide
    exact (readFields_readsRecord _ _).cons_refused hknown (e := (key, n)) (eq_ok_of_toOption hkey)
      hset es [] a
  | command =>
    simp only [strict, List.mem_cons, List.not_mem_nil, or_false] at hfield
    have hset : ∀ c, Command.setField field n {} ≠ .ok c := by
      intro c h
      rcases hfield with rfl | rfl
      all_goals
        obtain ⟨d, hd, -⟩ := bind_eq_ok h
        exact hcount _ d hd
    have hknown : field ∈ Command.fieldNames := by rcases hfield with rfl | rfl <;> decide
    simp only [read, Command.ofBody, Command.ofFields_eq]
    exact (readFields_readsRecord _ _).cons_refused hknown (e := (key, n)) (eq_ok_of_toOption hkey)
      hset es [] a
  | entry => exact OptionEntry.ofNode_null_refused hfield (eq_ok_of_toOption hkey) hn es a
  | env =>
    obtain rfl := List.mem_singleton.mp hfield
    have hset (name : String) : Node.null.readString ≠ .ok name := fun h => by cases h
    exact readBinding_null_refused "struct EnvBinding" (by decide) hset (eq_ok_of_toOption hkey) hn
      es a
  | flag =>
    obtain rfl := List.mem_singleton.mp hfield
    have hset (f : FlagBinding) : setFlagField "name" .null {} ≠ .ok f := fun h => by cases h
    exact readBinding_null_refused "struct FlagBinding" (by decide) hset (eq_ok_of_toOption hkey)
      hn es a
  | optionApi | components | commands | options | namedOptions => cases hfield

/-- A field of a record may stand in front of the others. -/
theorem read_field_first (s : Shape) {field : String} (hfield : field ∈ s.tolerant ++ s.strict)
    (e : Node × Node) (before after : List (Node × Node)) (a : s.Result) :
    s.read (.map (before ++ e :: after)) = .ok a ↔
      s.read (.map (e :: (before ++ after))) = .ok a := by
  have hs : s.ignoresOrder = true ∧ s.values = none := by
    cases s with
    | options | commands | namedOptions => cases hfield
    | document | optionApi | components | command | entry | env | flag => exact ⟨rfl, rfl⟩
  have hnames {es : List (Node × Node)} : s.values.isSome = true → es.Pairwise NamesDiffer := by
    rw [hs.2]
    nofun
  exact ⟨s.read_perm hs.1 List.perm_middle hnames a,
    s.read_perm hs.1 List.perm_middle.symm hnames a⟩

end Shape

theorem Commands.ofEntries_body_congr {n n' : Node} (h : Command.ofBody n = Command.ofBody n')
    (key : Node) (before after : List (Node × Node)) (start : Commands) :
    ofEntries start (before ++ (key, n) :: after) =
      ofEntries start (before ++ (key, n') :: after) := by
  induction before generalizing start with
  | nil => simp only [List.nil_append, ofEntries, h]
  | cons first before ih => simp only [List.cons_append, ofEntries, ih]

/-! ## Documents -/

/-- **Null means absent.** A field that tolerates null is decoded with null as if it were left out,
in every record at every depth of a document: to the same document, or to none. A command whose
body is null is decoded as one with an empty map. In every other field null makes decoding fail. -/
theorem Document.null_means_absent (n : Node) (hn : n.IsNull) :
    (∀ (record : Shape) (around : Node → Node), Place record .document around →
      ∀ field ∈ record.tolerant, ∀ key, record.fieldOf? key = some field →
      ∀ (before after : List (Node × Node)) (d : Document),
        ofNode (around (.map (record.leaveOut field before ++
            (key, n) :: record.leaveOut field after))) = .ok d ↔
          ofNode (around (.map (record.leaveOut field (before ++ after)))) = .ok d) ∧
    (∀ around : Node → Node, Place .commands .document around →
      ∀ (key : Node) (before after : List (Node × Node)) (d : Document),
        ofNode (around (.map (before ++ (key, n) :: after))) = .ok d ↔
          ofNode (around (.map (before ++ (key, .map []) :: after))) = .ok d) ∧
    ∀ (record : Shape) (around : Node → Node), Place record .document around →
      ∀ field ∈ record.strict, ∀ key, record.fieldOf? key = some field →
      ∀ (before after : List (Node × Node)) (d : Document),
        ofNode (around (.map (before ++ (key, n) :: after))) ≠ .ok d := by
  refine ⟨fun record around place field hfield key hkey before after d => ?_,
    fun around place key before after d => ?_,
    fun record around place field hfield key hkey before after d h => ?_⟩
  · have hread (a : record.Result) :
        record.read (.map (record.leaveOut field before ++
            (key, n) :: record.leaveOut field after)) = .ok a ↔
          record.read (.map (record.leaveOut field (before ++ after))) = .ok a := by
      rw [record.read_field_first (List.mem_append_left _ hfield), ← record.leaveOut_append,
        record.read_null_left_out hfield hkey hn fun e he => Shape.fieldOf?_of_mem_leaveOut he]
    exact ⟨place.congr (.map _) (.map _) fun a => (hread a).mp,
      place.congr (.map _) (.map _) fun a => (hread a).mpr⟩
  · have hbody : Command.ofBody n = Command.ofBody (.map []) := by
      rw [Command.ofBody_null hn, Command.ofBody, Command.ofFields]
    have hread (a : Commands) :
        Commands.ofNode (.map (before ++ (key, n) :: after)) = .ok a ↔
          Commands.ofNode (.map (before ++ (key, .map []) :: after)) = .ok a := by
      rw [Commands.ofNode, Commands.ofNode, Commands.ofEntries_body_congr hbody]
    exact ⟨place.congr (.map _) (.map _) fun a => (hread a).mp,
      place.congr (.map _) (.map _) fun a => (hread a).mpr⟩
  · obtain ⟨rest, hrest⟩ := place.focus (.map _) d h
    obtain ⟨a, ha, -⟩ := bind_eq_ok ((hrest _ (.map _)).symm.trans h)
    rw [record.read_field_first (List.mem_append_right _ hfield)] at ha
    exact record.read_null_refused hfield hkey hn _ a ha

/-- A null as a text writes it. -/
def tilde : Node := .scalar { text := "~" }

/-- A document with the command `a`. -/
def withBody (body : Node) : Node := .map [commandsField [(.text "a", body)]]

theorem tilde_absent :
    tilde.IsNull ∧
      (∃ d, Document.ofNode (withBody (.map [descriptionOfA])) = .ok d ∧
        Document.ofNode (withBody (.map [descriptionOfA, (.text "usage", tilde)])) = .ok d ∧
        d.commands.forest.names = ["a"]) ∧
      (∃ d, Document.ofNode (withBody tilde) = .ok d ∧ d.commands.forest.names = ["a"]) ∧
      ∀ d, Document.ofNode (withBody (.map [descriptionOfA, (.text "minArgs", tilde)])) ≠
        .ok d := by
  have hnull : tilde.IsNull := by
    refine ⟨rfl, fun s h => ?_⟩
    cases h
    rfl
  have hcommands : ("commands", Shape.commands) ∈ Shape.document.parts := by decide
  have hplace : Place .commands .document fun n => .map [(.text "commands", n)] :=
    .field [] [] hcommands rfl .here
  have hbody : Place .command .document withBody :=
    .field [] [] hcommands rfl (.value [] [] rfl .here)
  obtain ⟨hfield, hvoid, hrefused⟩ := Document.null_means_absent tilde hnull
  have hread (body : Node)
      (h : (Document.ofNode (withBody body)).toOption.map (·.commands.forest.names) = some ["a"]) :
      ∃ d, Document.ofNode (withBody body) = .ok d ∧ d.commands.forest.names = ["a"] := by
    obtain ⟨d, hd, hnames⟩ := Option.map_eq_some_iff.mp h
    exact ⟨d, eq_ok_of_toOption hd, hnames⟩
  refine ⟨hnull, ?_, ?_, hrefused .command withBody hbody "minArgs" (by decide) (.text "minArgs")
    rfl [descriptionOfA] []⟩
  · obtain ⟨d, hd, hnames⟩ := hread (.map [descriptionOfA]) (by decide +kernel)
    exact ⟨d, hd, (hfield .command withBody hbody "usage" (by decide) (.text "usage") rfl
      [descriptionOfA] [] d).mpr hd, hnames⟩
  · obtain ⟨d, hd, hnames⟩ := hread (.map []) (by decide +kernel)
    exact ⟨d, (hvoid _ hplace (.text "a") [] [] d).mpr hd, hnames⟩

end CommandSpec
