import CommandSpec.Decode.Document
import CommandSpec.Proofs.RecordReading
import CommandSpec.Tree.Dump

/-! Records read back field by field. A written record has a slot for each of its fields, some of
them left empty; reading it fills the slots one after the other (`ReadsFields.write`), and an
empty slot leaves what the field has without it. -/
namespace CommandSpec

/-- The fields of a written record by name; an absent one has no node. -/
abbrev Slots := List (String × Option Node)

namespace Slots

/-- The fields that are there, each written as `entry` does. -/
def write {β : Type} (entry : String → Node → β) (slots : Slots) : List β :=
  slots.filterMap fun s => s.2.map (entry s.1)

/-- The entries of the record. -/
def entries (slots : Slots) : List (Node × Node) := slots.write fieldNode

/-- The fields by name. -/
def present (slots : Slots) : List (String × Node) := slots.write Prod.mk

/-- The slots belong to different fields, which are among `known`. -/
structure Fit (known : List String) (slots : Slots) : Prop where
  known : ∀ s ∈ slots, s.1 ∈ known
  nodup : (slots.map Prod.fst).Nodup

end Slots

variable {α β : Type}

/-- Reads a slot into a record; an empty one changes nothing. -/
def fillSlot (setField : String → Node → α → Except DecodeError α) (record : α)
    (slot : String × Option Node) : Except DecodeError α :=
  match slot.2 with
  | some v => setField slot.1 v record
  | none => .ok record

/-- Slots behind fields that were seen before. -/
private theorem Slots.Fit.tail {known seen : List String} {slot : String × Option Node}
    {slots : Slots} (h : Slots.Fit known (slot :: slots))
    (hseen : ∀ s ∈ slot :: slots, s.1 ∉ seen) :
    Slots.Fit known slots ∧ (∀ s ∈ slots, s.1 ∉ seen) ∧ ∀ s ∈ slots, s.1 ∉ slot.1 :: seen := by
  obtain ⟨hnew, hnodup⟩ := List.nodup_cons.mp h.nodup
  have hrest : ∀ s ∈ slots, s.1 ∉ seen := fun s hs => hseen s (List.mem_cons_of_mem _ hs)
  refine ⟨⟨fun s hs => h.known s (List.mem_cons_of_mem _ hs), hnodup⟩, hrest, fun s hs hm => ?_⟩
  rcases List.mem_cons.mp hm with he | hm
  · exact hnew (he ▸ List.mem_map_of_mem hs)
  · exact hrest s hs hm

/-- What a reader of records does that takes a field that is known and new, and goes on. -/
structure ReadsFields (known : List String) (setField : String → Node → α → Except DecodeError α)
    (entry : String → Node → β) (read : List String → α → List β → Except DecodeError α) :
    Prop where
  nil : ∀ seen record, read seen record [] = .ok record
  cons : ∀ seen record name v rest, name ∈ known → name ∉ seen →
    read seen record (entry name v :: rest) =
      setField name v record >>= fun record => read (name :: seen) record rest

/-- Such a reader fills the slots of a written record one after the other. -/
theorem ReadsFields.write {known : List String}
    {setField : String → Node → α → Except DecodeError α} {entry : String → Node → β}
    {read : List String → α → List β → Except DecodeError α}
    (hr : ReadsFields known setField entry read) (seen : List String) (record : α) (slots : Slots)
    (h : slots.Fit known) (hseen : ∀ s ∈ slots, s.1 ∉ seen) :
    read seen record (slots.write entry) = slots.foldlM (fillSlot setField) record := by
  induction slots generalizing seen record with
  | nil => exact hr.nil seen record
  | cons slot slots ih =>
    obtain ⟨name, v?⟩ := slot
    obtain ⟨htail, hold, hnew⟩ := h.tail hseen
    rw [List.foldlM_cons]
    cases v? with
    | none => exact ih seen record htail hold
    | some v =>
      have hname : name ∈ known := h.known _ (List.mem_cons_self ..)
      have hfresh : name ∉ seen := hseen _ (List.mem_cons_self ..)
      refine (hr.cons seen record name v _ hname hfresh).trans (bind_congr fun record => ?_)
      exact ih (name :: seen) record htail hnew

/-- A reader of any records reads written ones, if it finds name and value of an entry. -/
theorem ReadsRecord.readsFields {known : List String}
    {setField : String → Node → α → Except DecodeError α} {name : β → Except DecodeError String}
    {value : β → Node} {skip : β → Except DecodeError Unit}
    {read : List String → α → List β → Except DecodeError α}
    (hr : ReadsRecord known setField name value skip read) (entry : String → Node → β)
    (hname : ∀ field v, name (entry field v) = .ok field)
    (hvalue : ∀ field v, value (entry field v) = v) :
    ReadsFields known setField entry read where
  nil := hr.nil
  cons := fun seen record field v rest hfield hfresh => by
    simp [hr.cons, hname, hvalue, hfield, hfresh]

theorem readFields_readsFields (known : List String)
    (setField : String → Node → α → Except DecodeError α) :
    ReadsFields known setField fieldNode (readFields known setField) :=
  (readFields_readsRecord known setField).readsFields fieldNode (fun _ _ => rfl) fun _ _ => rfl

theorem OptionSpec.ofCollected_readsFields :
    ReadsFields fieldNames (setField .collected) Prod.mk ofCollected :=
  ofCollected_readsRecord.readsFields Prod.mk (fun _ _ => rfl) fun _ _ => rfl

/-! ## Options -/

/-- The node of a text that is left out when it is empty. -/
def filledText (s : String) : Option Node := if s.isEmpty then none else some (.text s)

namespace Slots

theorem entries_append (slots more : Slots) :
    entries (slots ++ more) = entries slots ++ entries more := List.filterMap_append

theorem optionalField_eq (name : String) (value : Option String) :
    optionalField name value = entries [(name, value.map Node.text)] := by
  cases value <;> rfl

theorem filledField_eq (name s : String) : filledField name s = entries [(name, filledText s)] := by
  unfold filledField filledText
  cases s.isEmpty <;> rfl

theorem unless_eq (absent : Bool) (name : String) (v : Node) :
    (if absent then [] else [fieldNode name v]) =
      entries [(name, if absent then none else some v)] := by
  cases absent <;> rfl

theorem when_eq (there : Bool) (name : String) (v : Node) :
    (if there then [fieldNode name v] else []) =
      entries [(name, if there then some v else none)] := by
  cases there <;> rfl

end Slots

def OptionSpec.slots (o : OptionSpec) : Slots :=
  [("name", filledText o.name),
   ("type", filledText o.typeTag),
   ("description", o.description.map .text),
   ("usage", o.usage.map .text),
   ("env", if o.env.isEmpty then none else some (.map [fieldNode "name" (.text o.env)])),
   ("flag", if o.flag.isEmpty then none else some o.flag.toNode),
   ("default", o.default.map .text),
   ("required", if o.required then some (.bool true) else none)]

theorem OptionSpec.toNode_eq (o : OptionSpec) : o.toNode = .map o.slots.entries := by
  unfold toNode
  rw [Slots.filledField_eq, Slots.filledField_eq, Slots.optionalField_eq, Slots.optionalField_eq,
    Slots.unless_eq, Slots.unless_eq, Slots.optionalField_eq, Slots.when_eq]
  simp only [← Slots.entries_append]
  rfl

/-- Every item that reads back by itself. -/
theorem readEach_map (read : Node → Except DecodeError α) (write : α → Node) (as : List α)
    (h : ∀ a ∈ as, read (write a) = .ok a) : readEach read (as.map write) = .ok as := by
  induction as with
  | nil => rfl
  | cons a as ih =>
    obtain ⟨ha, has⟩ := List.forall_mem_cons.mp h
    simp only [List.map_cons, readEach, ha, ih has, ok_bind]
    rfl

theorem readFlag_written (f : FlagBinding) : readFlag .collected f.toNode = .ok f := by
  obtain ⟨name, aliases⟩ := f
  have haliases : readEach Node.readString (aliases.map Node.text) = .ok aliases :=
    readEach_map _ _ aliases fun _ _ => rfl
  cases aliases with
  | nil => rfl
  | cons a rest =>
    have hset (f : FlagBinding) : setFlagField "aliases" (.seq ((a :: rest).map .text)) f =
        .ok { f with aliases := a :: rest } := by
      have hitems : Node.readItems (.seq ((a :: rest).map .text)) "a sequence" =
          .ok ((a :: rest).map .text) := rfl
      have hname : ("aliases" == "name") = false := rfl
      simp only [setFlagField, hname, hitems, haliases, Node.readOptional, ok_bind]
      rfl
    change (setFlagField "aliases" (.seq ((a :: rest).map .text)) ⟨name, []⟩ >>= Except.ok) = _
    rw [hset]
    rfl

theorem FlagBinding.eq_of_isEmpty (f : FlagBinding) (h : f.isEmpty = true) : f = {} := by
  obtain ⟨name, aliases⟩ := f
  simp only [isEmpty, Bool.and_eq_true, String.isEmpty_iff, List.isEmpty_iff] at h
  obtain ⟨rfl, rfl⟩ := h
  rfl

theorem fillSlot_filledText (setField : String → Node → α → Except DecodeError α) (name s : String)
    (record : α) (update : String → α) (hset : setField name (.text s) record = .ok (update s))
    (hempty : update "" = record) :
    fillSlot setField record (name, filledText s) = .ok (update s) := by
  unfold fillSlot filledText
  by_cases h : s.isEmpty = true
  · obtain rfl := String.isEmpty_iff.mp h
    exact congrArg Except.ok hempty.symm
  · rw [if_neg h]
    exact hset

/-- A count is filled as any node that reads as it. -/
theorem fillSlot_count (setField : String → Node → α → Except DecodeError α) (name : String)
    (n : UInt32) (record updated : α)
    (hset : ∀ v, v.readUInt32 = .ok n → setField name v record = .ok updated) :
    fillSlot setField record (name, some (.int n.toNat)) = .ok updated :=
  hset _ (Node.readUInt32_toNat n)

theorem OptionSpec.fold_slots (o : OptionSpec) :
    o.slots.foldlM (fillSlot (setField .collected)) {} = .ok o := by
  obtain ⟨name, typeTag, description, usage, env, flag, default, required⟩ := o
  have hname : fillSlot (setField .collected) {} ("name", filledText name) = .ok { name } :=
    fillSlot_filledText _ _ _ _ (fun name => ({ name } : OptionSpec)) rfl rfl
  have htype : fillSlot (setField .collected) { name } ("type", filledText typeTag) =
      .ok { name, typeTag } :=
    fillSlot_filledText _ _ _ _ (fun typeTag => ({ name, typeTag } : OptionSpec)) rfl rfl
  have hdescription : fillSlot (setField .collected) { name, typeTag }
      ("description", description.map .text) = .ok { name, typeTag, description } := by
    cases description <;> rfl
  have husage : fillSlot (setField .collected) { name, typeTag, description }
      ("usage", usage.map .text) = .ok { name, typeTag, description, usage } := by
    cases usage <;> rfl
  have henv : fillSlot (setField .collected) { name, typeTag, description, usage }
      ("env", if env.isEmpty then none else some (.map [fieldNode "name" (.text env)])) =
        .ok { name, typeTag, description, usage, env } := by
    by_cases h : env.isEmpty = true
    · obtain rfl := String.isEmpty_iff.mp h
      rfl
    · rw [if_neg h]
      rfl
  have hflag : fillSlot (setField .collected) { name, typeTag, description, usage, env }
      ("flag", if flag.isEmpty then none else some flag.toNode) =
        .ok { name, typeTag, description, usage, env, flag } := by
    by_cases h : flag.isEmpty = true
    · obtain rfl := flag.eq_of_isEmpty h
      rfl
    · rw [if_neg h]
      change (readFlag .collected flag.toNode >>= fun flag =>
        Except.ok ({ name, typeTag, description, usage, env, flag } : OptionSpec)) = _
      rw [readFlag_written]
      rfl
  have hdefault : fillSlot (setField .collected) { name, typeTag, description, usage, env, flag }
      ("default", default.map .text) =
        .ok { name, typeTag, description, usage, env, flag, default } := by
    cases default <;> rfl
  have hrequired : fillSlot (setField .collected)
      { name, typeTag, description, usage, env, flag, default }
      ("required", if required then some (.bool true) else none) =
        .ok { name, typeTag, description, usage, env, flag, default, required } := by
    cases required <;> rfl
  unfold slots
  rw [foldlM_cons_ok _ hname, foldlM_cons_ok _ htype, foldlM_cons_ok _ hdescription,
    foldlM_cons_ok _ husage, foldlM_cons_ok _ henv, foldlM_cons_ok _ hflag,
    foldlM_cons_ok _ hdefault, foldlM_cons_ok _ hrequired]
  rfl

/-! ## Entries -/

theorem settleItems_text (texts : List String) :
    Node.settleItems (texts.map .text) = .ok (texts.map .text) := by
  induction texts with
  | nil => rfl
  | cons s rest ih =>
    rw [List.map_cons, Node.settleItems, ih]
    rfl

theorem FlagBinding.settle_toNode (f : FlagBinding) : f.toNode.settle = .ok f.toNode := by
  obtain ⟨name, aliases⟩ := f
  cases aliases with
  | nil => rfl
  | cons a rest =>
    have haliases :
        Node.settle (.seq ((a :: rest).map .text)) = .ok (.seq ((a :: rest).map .text)) := by
      rw [Node.settle, settleItems_text]
      rfl
    simp only [toNode, List.isEmpty_cons, Bool.false_eq_true, if_false, fieldNode]
    simp only [Node.settle, Node.settleEntries] at haliases ⊢
    simp only [haliases, ok_bind]
    rfl

/-- What an option writes is finished. -/
theorem OptionSpec.settle_slots (o : OptionSpec) :
    ∀ s ∈ o.slots, ∀ v ∈ s.2, v.settle = .ok v := by
  have htext (value : Option String) : ∀ v ∈ value.map Node.text, v.settle = .ok v := by
    cases value <;> simp [Node.settle]
  have hfilled (s : String) : ∀ v ∈ filledText s, v.settle = .ok v := by
    unfold filledText
    split <;> simp [Node.settle]
  have hbinding (absent : Bool) (n : Node) (hn : n.settle = .ok n) :
      ∀ v ∈ (if absent then none else some n), v.settle = .ok v := by
    cases absent <;> simp [hn]
  have hrequired : ∀ v ∈ (if o.required then some (Node.bool true) else none),
      v.settle = .ok v := by
    cases o.required <;> simp [Node.settle]
  simp only [slots, List.forall_mem_cons]
  exact ⟨hfilled _, hfilled _, htext _, htext _, hbinding _ _ rfl,
    hbinding _ _ o.flag.settle_toNode, htext _, hrequired, by simp⟩

namespace OptionEntry

theorem collect_written (key? : Option (Option String)) (slots : Slots)
    (hname : ∀ s ∈ slots, s.1 ≠ referenceField)
    (hsettle : ∀ s ∈ slots, ∀ v ∈ s.2, v.settle = .ok v) :
    collect key? slots.entries = .ok (key?.getD none, slots.present) := by
  induction slots with
  | nil => rfl
  | cons slot slots ih =>
    obtain ⟨name, v?⟩ := slot
    obtain ⟨hhere, hrest⟩ := List.forall_mem_cons.mp hname
    obtain ⟨hv, hvs⟩ := List.forall_mem_cons.mp hsettle
    cases v? with
    | none => exact ih hrest hvs
    | some v =>
      have hfield : (name == referenceField) = false := beq_false_of_ne hhere
      have hcollect := ih hrest hvs
      have hstep : collect key? (fieldNode name v :: Slots.entries slots) =
          v.settle >>= fun v => collect key? (Slots.entries slots) >>= fun collected =>
            .ok (collected.1, (name, v) :: collected.2) := by
        simp only [collect, fieldNode, Node.readFieldName, Node.untagged, ok_bind, hfield]
        rfl
      refine hstep.trans ?_
      rw [hv v rfl, ok_bind, hcollect]
      rfl

/-- The reference is one that decoding lets through. -/
def Decodable : OptionEntry → Prop
  | inline _ => True
  | reference key => isReferenceKey key = true

theorem isBlankText_of_isReferenceKey (key : String) (h : isReferenceKey key = true) :
    Text.isBlankText key = false := by
  unfold isReferenceKey at h
  simp only [Bool.and_eq_true] at h
  obtain ⟨rest, hrest⟩ := List.isPrefixOf_iff_prefix.mp h.1.1
  unfold Text.isBlankText
  rw [← hrest]
  rfl

theorem ofNode_toNode (e : OptionEntry) (h : e.Decodable) : ofNode e.toNode = .ok e := by
  cases e with
  | inline o =>
    have hfit : o.slots.Fit OptionSpec.fieldNames :=
      ⟨by simp [OptionSpec.slots, OptionSpec.fieldNames], by simp [OptionSpec.slots]⟩
    have hcollect : collect none o.slots.entries = .ok (none, o.slots.present) :=
      collect_written none o.slots (by simp [OptionSpec.slots, referenceField]) o.settle_slots
    have hfields : OptionSpec.ofCollected [] {} o.slots.present = .ok o :=
      (OptionSpec.ofCollected_readsFields.write [] {} o.slots hfit (by simp)).trans o.fold_slots
    have hentries : Node.readEntries (.map o.slots.entries) "struct RawOptionOrReference" =
        .ok o.slots.entries := rfl
    have hnode : (inline o).toNode = .map o.slots.entries := o.toNode_eq
    unfold ofNode
    rw [hnode, hentries, ok_bind, hcollect, ok_bind]
    simp only [hfields, ok_bind]
    rfl
  | reference key =>
    have hblank := isBlankText_of_isReferenceKey key h
    have hcollect : collect none [fieldNode "$ref" (.text key)] = .ok (some key, []) := rfl
    have hentries : Node.readEntries (.map [fieldNode "$ref" (.text key)])
        "struct RawOptionOrReference" = .ok [fieldNode "$ref" (.text key)] := rfl
    have hkey : isReferenceKey key = true := h
    unfold ofNode toNode
    rw [hentries, ok_bind, hcollect, ok_bind]
    simp only [OptionSpec.ofCollected, ok_bind, hblank, hkey]
    rfl

end OptionEntry

theorem readOptionList_written (options : List OptionEntry)
    (h : ∀ e ∈ options, e.Decodable) : readOptionList (optionListNode options) = .ok options :=
  readEach_map _ _ options fun e he => e.ofNode_toNode (h e he)

end CommandSpec
