import CommandSpec.Proofs.DumpRoundTrip

/-! Places in a document tree. What is read at a place has a shape: it is a record, or a list or a
map of such. A decoder that reads a tree reads what stands at a place of it and goes on with the
result (`Place.focus`), so what is written there matters only for that result. -/
namespace CommandSpec

/-! ## Shapes -/

/-- What parts of a document tree are read as. -/
inductive Shape where
  | document
  | optionApi
  | components
  | commands
  | command
  | options
  | namedOptions
  | entry
  | env
  | flag
  deriving DecidableEq

namespace Shape

/-- What reading gives. -/
abbrev Result : Shape → Type
  | document => Document
  | optionApi => Option String
  | components => NameMap OptionSpec
  | commands => Commands
  | command => Command
  | options => List OptionEntry
  | namedOptions => NameMap OptionSpec
  | entry => OptionEntry
  | env => String
  | flag => FlagBinding

/-- Reads a node unless it stands for an absent value. -/
def readUnlessAbsent {α : Type} (absent : α) (read : Node → Except DecodeError α) (n : Node) :
    Except DecodeError α := do
  match ← n.readOptional with
  | none => return absent
  | some n => read n

/-- How a node of the shape is read where it stands in a document. Bindings stand in options,
whose fields are collected first. -/
def read : (s : Shape) → Node → Except DecodeError s.Result
  | document => Document.ofNode
  | optionApi => readUnlessAbsent none readVersion
  | components => readUnlessAbsent .empty readComponents
  | commands => Commands.ofNode
  | command => Command.ofBody
  | options => readOptionList
  | namedOptions => readNamedOptions
  | entry => OptionEntry.ofNode
  | env => fun n => n.settle >>= readUnlessAbsent "" (readEnv .collected)
  | flag => fun n => n.settle >>= readUnlessAbsent {} (readFlag .collected)

/-- The fields that are of a shape of their own. -/
def parts : Shape → List (String × Shape)
  | document => [("optionapi", optionApi), ("options", options), ("commands", commands),
      ("components", components)]
  | components => [("options", namedOptions)]
  | command => [("options", options), ("commands", commands)]
  | entry => [("env", env), ("flag", flag)]
  | optionApi | commands | options | namedOptions | env | flag => []

/-- The shape of the values in a map. -/
def values : Shape → Option Shape
  | commands => some command
  | options | namedOptions => some entry
  | document | optionApi | components | command | entry | env | flag => none

/-- The shape of the items in a sequence. -/
def items : Shape → Option Shape
  | options => some entry
  | document | optionApi | components | commands | command | namedOptions | entry | env | flag =>
    none

/-- Whether local tags around a map are set aside. -/
def ignoresTags : Shape → Bool
  | options | env | flag => false
  | document | optionApi | components | commands | command | namedOptions | entry => true

end Shape

/-- Trees of the shape `outer` around a node of the shape `inner`. -/
inductive Place (inner : Shape) : Shape → (Node → Node) → Prop where
  | here : Place inner inner id
  | tagged {outer : Shape} {around : Node → Node} (tag : String) (h : outer.ignoresTags = true)
      (below : Place inner outer around) : Place inner outer fun n => .tagged tag (around n)
  | field {outer part : Shape} {around : Node → Node} {name : String} {key : Node}
      (before after : List (Node × Node)) (h : (name, part) ∈ outer.parts)
      (hkey : key.readFieldName = .ok name) (below : Place inner part around) :
      Place inner outer fun n => .map (before ++ (key, around n) :: after)
  | value {outer part : Shape} {around : Node → Node} {key : Node}
      (before after : List (Node × Node)) (h : outer.values = some part)
      (below : Place inner part around) :
      Place inner outer fun n => .map (before ++ (key, around n) :: after)
  | item {outer part : Shape} {around : Node → Node} (before after : List Node)
      (h : outer.items = some part) (below : Place inner part around) :
      Place inner outer fun n => .seq (before ++ around n :: after)

/-- A collection, if need be under local tags. -/
inductive Node.IsCollection : Node → Prop where
  | map (entries : List (Node × Node)) : IsCollection (.map entries)
  | seq (items : List Node) : IsCollection (.seq items)
  | tagged (tag : String) {n : Node} (h : n.IsCollection) : IsCollection (.tagged tag n)

theorem Node.IsCollection.readOptional {n : Node} (h : n.IsCollection) :
    n.readOptional = .ok (some n) := by
  cases h <;> rfl

theorem Place.isCollection {inner outer : Shape} {around : Node → Node}
    (h : Place inner outer around) {n : Node} (hn : n.IsCollection) :
    (around n).IsCollection := by
  induction h with
  | here => exact hn
  | tagged tag _ _ ih => exact ih.tagged tag
  | field => exact .map _
  | value => exact .map _
  | item => exact .seq _

/-! ## Reading around a place -/

variable {α β γ : Type}

/-- Whatever collection is put in, a reader first reads that by `part` and then goes on with the
result in one and the same way. -/
def Focuses (whole : Node → Except DecodeError α) (part : Node → Except DecodeError β) : Prop :=
  ∃ rest : β → Except DecodeError α, ∀ n : Node, n.IsCollection → whole n = part n >>= rest

theorem Focuses.refl (read : Node → Except DecodeError α) : Focuses read read :=
  ⟨pure, fun n _ => (bind_pure (read n)).symm⟩

theorem Focuses.of_eq {whole : Node → Except DecodeError α} {part : Node → Except DecodeError β}
    (rest : β → Except DecodeError α) (h : ∀ n : Node, whole n = part n >>= rest) :
    Focuses whole part := ⟨rest, fun n _ => h n⟩

theorem Focuses.andThen {whole : Node → Except DecodeError α} {part : Node → Except DecodeError β}
    (h : Focuses whole part) (next : α → Except DecodeError γ) :
    Focuses (fun n => whole n >>= next) part := by
  obtain ⟨rest, h⟩ := h
  refine ⟨fun b => rest b >>= next, fun n hn => ?_⟩
  calc whole n >>= next = (part n >>= rest) >>= next := by rw [h n hn]
    _ = part n >>= fun b => rest b >>= next := bind_assoc ..

/-- What stands around a node is read through what stands around a part of it. -/
theorem Focuses.through {whole : Node → Except DecodeError α}
    {middle : Node → Except DecodeError β} {part : Node → Except DecodeError γ}
    (h : Focuses whole middle) {around : Node → Node}
    (haround : ∀ n : Node, n.IsCollection → (around n).IsCollection) {n : Node}
    (hn : n.IsCollection) {a : α} (hread : whole (around n) = .ok a)
    (hpart : ∀ b, middle (around n) = .ok b → Focuses (fun n => middle (around n)) part) :
    Focuses (fun n => whole (around n)) part := by
  obtain ⟨rest, h⟩ := h
  rw [h _ (haround n hn)] at hread
  obtain ⟨b, hb, -⟩ := bind_eq_ok hread
  obtain ⟨between, hbetween⟩ := hpart b hb
  refine ⟨fun c => between c >>= rest, fun n hn => ?_⟩
  calc whole (around n) = middle (around n) >>= rest := h _ (haround n hn)
    _ = (part n >>= between) >>= rest := congrArg (· >>= rest) (hbetween n hn)
    _ = part n >>= fun c => between c >>= rest := bind_assoc ..

/-- A field that may be absent is set to what it is read as. -/
theorem Shape.store_unlessAbsent (absent : α) (read : Node → Except DecodeError α) (store : α → β)
    (n : Node) :
    (n.readOptional >>= fun n? =>
      match n? with
      | none => .ok (store absent)
      | some n => read n >>= fun a => .ok (store a)) =
    readUnlessAbsent absent read n >>= fun a => .ok (store a) := by
  unfold readUnlessAbsent
  rw [bind_assoc]
  refine bind_congr fun n? => ?_
  cases n? <;> rfl

/-! ### Records -/

/-- A field that is set to what its node is read as. -/
theorem readFields_focuses (known : List String)
    (setField : String → Node → α → Except DecodeError α) {field : String}
    (hfield : field ∈ known) (part : Node → Except DecodeError β) (store : β → α → α)
    (hset : ∀ (n : Node) (a : α), setField field n a = part n >>= fun b => .ok (store b a))
    {key : Node} (hkey : key.readFieldName = .ok field) (before after : List (Node × Node))
    (n : Node) (a a' : α)
    (h : readFields known setField [] a (before ++ (key, n) :: after) = .ok a') :
    Focuses (fun n => readFields known setField [] a (before ++ (key, n) :: after)) part := by
  obtain ⟨b, seen, hfocus⟩ := (readFields_readsRecord known setField).focus hfield
    (e := (key, n)) hkey before after [] a a' h
  refine .of_eq (fun x => readFields known setField seen (store x b) after) fun n' => ?_
  rw [hfocus (key, n') hkey, hset]
  cases part n' <;> rfl

theorem Document.ofNode_focuses {field : String} {part : Shape}
    (hpart : (field, part) ∈ Shape.document.parts) {key : Node}
    (hkey : key.readFieldName = .ok field) (before after : List (Node × Node)) (n : Node)
    (d : Document) (h : ofNode (.map (before ++ (key, n) :: after)) = .ok d) :
    Focuses (fun n => ofNode (.map (before ++ (key, n) :: after))) part.read := by
  simp only [Shape.parts, List.mem_cons, Prod.mk.injEq, List.not_mem_nil, or_false] at hpart
  rcases hpart with ⟨rfl, rfl⟩ | ⟨rfl, rfl⟩ | ⟨rfl, rfl⟩ | ⟨rfl, rfl⟩
  · refine readFields_focuses fieldNames setField (by decide) _
      (fun version d => { d with version }) (fun n d => ?_) hkey before after n {} d h
    exact Shape.store_unlessAbsent none readVersion (fun version => { d with version }) n
  · exact readFields_focuses fieldNames setField (by decide) _
      (fun options d => { d with options }) (fun n d => rfl) hkey before after n {} d h
  · exact readFields_focuses fieldNames setField (by decide) _
      (fun commands d => { d with commands }) (fun n d => rfl) hkey before after n {} d h
  · refine readFields_focuses fieldNames setField (by decide) _
      (fun components d => { d with components }) (fun n d => ?_) hkey before after n {} d h
    exact Shape.store_unlessAbsent .empty readComponents (fun components => { d with components }) n

theorem readComponents_focuses {field : String} {part : Shape}
    (hpart : (field, part) ∈ Shape.components.parts) {key : Node}
    (hkey : key.readFieldName = .ok field) (before after : List (Node × Node)) (n : Node)
    (m : NameMap OptionSpec) (h : readComponents (.map (before ++ (key, n) :: after)) = .ok m) :
    Focuses (fun n => readComponents (.map (before ++ (key, n) :: after))) part.read := by
  simp only [Shape.parts, List.mem_singleton, Prod.mk.injEq] at hpart
  obtain ⟨rfl, rfl⟩ := hpart
  refine readFields_focuses ["options"] (fun _ v _ => readNamedOptions v) (by decide) _
    (fun m _ => m) (fun n m => ?_) hkey before after n .empty m h
  exact (bind_pure (readNamedOptions n)).symm

/-! ### Commands -/

theorem Command.ofBody_focuses {field : String} {part : Shape}
    (hpart : (field, part) ∈ Shape.command.parts) {key : Node}
    (hkey : key.readFieldName = .ok field) (before after : List (Node × Node)) (n : Node)
    (c : Command) (h : ofBody (.map (before ++ (key, n) :: after)) = .ok c) :
    Focuses (fun n => ofBody (.map (before ++ (key, n) :: after))) part.read := by
  have hbody (entries : List (Node × Node)) :
      ofBody (.map entries) = readFields fieldNames setField [] {} entries := ofFields_eq [] {} _
  simp only [Shape.parts, List.mem_cons, Prod.mk.injEq, List.not_mem_nil, or_false] at hpart
  simp only [hbody] at h ⊢
  rcases hpart with ⟨rfl, rfl⟩ | ⟨rfl, rfl⟩
  · refine readFields_focuses fieldNames setField (by decide) _
      (fun options c => { c with options }) (fun n c => ?_) hkey before after n {} c h
    cases hread : readOptionList n <;> simp [setField, Declaration.setField, Shape.read, hread]
  · exact readFields_focuses fieldNames setField (by decide) _
      (fun commands c => { c with commands }) (fun n c => rfl) hkey before after n {} c h

theorem Commands.ofEntries_focuses (key : Node) (before after : List (Node × Node)) (n : Node)
    (start c : Commands) (h : ofEntries start (before ++ (key, n) :: after) = .ok c) :
    Focuses (fun n => ofEntries start (before ++ (key, n) :: after)) Command.ofBody := by
  induction before generalizing start with
  | nil =>
    obtain ⟨name, hname, -⟩ := bind_eq_ok h
    refine .of_eq (fun command => ofEntries (start.insert name command) after) fun n => ?_
    simp only [List.nil_append, ofEntries, hname, ok_bind]
  | cons first before ih =>
    obtain ⟨other, body⟩ := first
    obtain ⟨name, hname, h⟩ := bind_eq_ok h
    obtain ⟨command, hcommand, h⟩ := bind_eq_ok h
    simp only [List.cons_append, ofEntries, hname, hcommand, ok_bind]
    exact ih _ h

/-! ### Lists and maps of options -/

theorem readEach_focuses (read : Node → Except DecodeError α) (before after : List Node) (n : Node)
    (as : List α) (h : readEach read (before ++ n :: after) = .ok as) :
    Focuses (fun n => readEach read (before ++ n :: after)) read := by
  induction before generalizing as with
  | nil => exact .of_eq _ fun n => rfl
  | cons first before ih =>
    obtain ⟨a, ha, h⟩ := bind_eq_ok h
    obtain ⟨rest, hrest, -⟩ := bind_eq_ok h
    simp only [List.cons_append, readEach, ha, ok_bind]
    exact (ih rest hrest).andThen _

theorem readNamedEntries_focuses (key : Node) (before after : List (Node × Node)) (n : Node)
    (entries : List OptionEntry)
    (h : readNamedEntries (before ++ (key, n) :: after) = .ok entries) :
    Focuses (fun n => readNamedEntries (before ++ (key, n) :: after)) OptionEntry.ofNode := by
  induction before generalizing entries with
  | nil =>
    obtain ⟨name, hname, -⟩ := bind_eq_ok h
    refine .of_eq (fun entry => readNamedEntries after >>= fun rest =>
      .ok (entry.named name :: rest)) fun n => ?_
    simp only [List.nil_append, readNamedEntries, hname, ok_bind]
    rfl
  | cons first before ih =>
    obtain ⟨other, v⟩ := first
    obtain ⟨name, hname, h⟩ := bind_eq_ok h
    obtain ⟨entry, hentry, h⟩ := bind_eq_ok h
    obtain ⟨rest, hrest, -⟩ := bind_eq_ok h
    simp only [List.cons_append, readNamedEntries, hname, hentry, ok_bind]
    exact (ih rest hrest).andThen _

theorem readEntryMap_focuses (key : Node) (before after : List (Node × Node)) (n : Node)
    (start m : NameMap OptionEntry)
    (h : readEntryMap start (before ++ (key, n) :: after) = .ok m) :
    Focuses (fun n => readEntryMap start (before ++ (key, n) :: after)) OptionEntry.ofNode := by
  induction before generalizing start with
  | nil =>
    obtain ⟨name, hname, -⟩ := bind_eq_ok h
    refine .of_eq (fun entry => readEntryMap (start.insert name entry) after) fun n => ?_
    simp only [List.nil_append, readEntryMap, hname, ok_bind]
  | cons first before ih =>
    obtain ⟨other, v⟩ := first
    obtain ⟨name, hname, h⟩ := bind_eq_ok h
    obtain ⟨entry, hentry, h⟩ := bind_eq_ok h
    simp only [List.cons_append, readEntryMap, hname, hentry, ok_bind]
    exact ih _ h

theorem readNamedOptions_focuses (key : Node) (before after : List (Node × Node)) (n : Node)
    (m : NameMap OptionSpec) (h : readNamedOptions (.map (before ++ (key, n) :: after)) = .ok m) :
    Focuses (fun n => readNamedOptions (.map (before ++ (key, n) :: after)))
      OptionEntry.ofNode := by
  have hread (entries : List (Node × Node)) : readNamedOptions (.map entries) =
      readEntryMap .empty entries >>= fun m => componentsOf .empty m.entries := rfl
  simp only [hread] at h ⊢
  obtain ⟨entries, hentries, -⟩ := bind_eq_ok h
  exact (readEntryMap_focuses key before after n .empty entries hentries).andThen _

/-! ### Option entries -/

/-- Fields that were collected come before those that follow, whatever these are. -/
theorem OptionEntry.collect_append (before rest : List (Node × Node))
    (key? : Option (Option String)) (c : Option String × List (String × Node))
    (h : collect key? (before ++ rest) = .ok c) :
    ∃ (past : Option (Option String)) (first : List (String × Node)), ∀ rest,
      collect key? (before ++ rest) =
        collect past rest >>= fun c => .ok (c.1, first ++ c.2) := by
  induction before generalizing key? c with
  | nil => exact ⟨key?, [], fun rest => (bind_pure _).symm⟩
  | cons entry before ih =>
    obtain ⟨other, v⟩ := entry
    simp only [List.cons_append, collect] at h ⊢
    obtain ⟨field, hfield, h⟩ := bind_eq_ok h
    simp only [hfield, ok_bind]
    -- a reference is put aside, any other field stands before those that follow
    by_cases href : (field == referenceField) = true
    · simp only [href, if_true] at h ⊢
      by_cases hset : key?.isSome = true
      · rw [if_pos hset] at h
        cases h
      · rw [if_neg hset] at h
        simp only [hset]
        obtain ⟨reference, hreference, h⟩ := bind_eq_ok h
        simp only [hreference, ok_bind]
        exact ih _ c h
    · simp only [href] at h ⊢
      obtain ⟨w, hw, h⟩ := bind_eq_ok h
      obtain ⟨collected, hcollected, -⟩ := bind_eq_ok h
      obtain ⟨past, first, hpast⟩ := ih key? collected hcollected
      refine ⟨past, (field, w) :: first, fun rest => ?_⟩
      simp only [hw, hpast, ok_bind]
      cases collect past rest <;> rfl

/-- A field that is no reference is collected as its finished value. -/
theorem OptionEntry.collect_cons {name : String} (hname : name ≠ referenceField) {key : Node}
    (hkey : key.readFieldName = .ok name) (key? : Option (Option String)) (n : Node)
    (rest : List (Node × Node)) :
    collect key? ((key, n) :: rest) = n.settle >>= fun v =>
      collect key? rest >>= fun c => .ok (c.1, (name, v) :: c.2) := by
  simp only [collect, hkey, ok_bind, beq_false_of_ne hname]
  rfl

theorem OptionSpec.setField_focuses {field : String} {part : Shape}
    (hpart : (field, part) ∈ Shape.entry.parts) (o : OptionSpec) :
    ∃ store : part.Result → OptionSpec, ∀ n : Node,
      n.settle >>= (fun v => setField .collected field v o) =
        part.read n >>= fun b => .ok (store b) := by
  simp only [Shape.parts, List.mem_cons, Prod.mk.injEq, List.not_mem_nil, or_false] at hpart
  rcases hpart with ⟨rfl, rfl⟩ | ⟨rfl, rfl⟩
  · refine ⟨fun env => { o with env }, fun n => ?_⟩
    simp only [Shape.read, bind_assoc]
    exact bind_congr fun v => Shape.store_unlessAbsent "" (readEnv .collected)
      (fun env : String => ({ o with env } : OptionSpec)) v
  · refine ⟨fun flag => { o with flag }, fun n => ?_⟩
    simp only [Shape.read, bind_assoc]
    exact bind_congr fun v => Shape.store_unlessAbsent ({} : FlagBinding) (readFlag .collected)
      (fun flag : FlagBinding => ({ o with flag } : OptionSpec)) v

/-- The entry of a reference, if one was set, and of the option that the other fields give. -/
def OptionEntry.ofParts (key? : Option String) (option : OptionSpec) :
    Except DecodeError OptionEntry :=
  match key? with
  | some key =>
    if Text.isBlankText key then .ok (.inline option)
    else if isReferenceKey key then .ok (.reference key)
    else .error (.invalidReference key)
  | none => .ok (.inline option)

theorem OptionEntry.ofNode_map (entries : List (Node × Node)) :
    ofNode (.map entries) = collect none entries >>= fun collected =>
      OptionSpec.ofCollected [] {} collected.2 >>= ofParts collected.1 := rfl

theorem OptionEntry.ofNode_focuses {field : String} {part : Shape}
    (hpart : (field, part) ∈ Shape.entry.parts) {key : Node}
    (hkey : key.readFieldName = .ok field) (before after : List (Node × Node)) (n : Node)
    (e : OptionEntry) (h : ofNode (.map (before ++ (key, n) :: after)) = .ok e) :
    Focuses (fun n => ofNode (.map (before ++ (key, n) :: after))) part.read := by
  have hfield : field ∈ OptionSpec.fieldNames ∧ field ≠ referenceField := by
    simp only [Shape.parts, List.mem_cons, Prod.mk.injEq, List.not_mem_nil, or_false] at hpart
    rcases hpart with ⟨rfl, -⟩ | ⟨rfl, -⟩ <;> decide
  simp only [ofNode_map] at h ⊢
  obtain ⟨collected, hcollected, h⟩ := bind_eq_ok h
  obtain ⟨option, hoption, -⟩ := bind_eq_ok h
  obtain ⟨past, first, happend⟩ := collect_append before _ none collected hcollected
  rw [happend, collect_cons hfield.2 hkey] at hcollected
  obtain ⟨c, hc, hcollected⟩ := bind_eq_ok hcollected
  obtain ⟨v, -, hc⟩ := bind_eq_ok hc
  obtain ⟨⟨reference, last⟩, hlast, hc⟩ := bind_eq_ok hc
  cases hc
  cases hcollected
  have hcollect (n : Node) : collect none (before ++ (key, n) :: after) =
      n.settle >>= fun v => .ok (reference, first ++ (field, v) :: last) := by
    rw [happend, collect_cons hfield.2 hkey, hlast, bind_assoc]
    rfl
  obtain ⟨b, seen, hfocus⟩ := OptionSpec.ofCollected_readsRecord.focus hfield.1
    (e := (field, v)) rfl first last [] {} option hoption
  obtain ⟨store, hstore⟩ := OptionSpec.setField_focuses hpart b
  refine .of_eq (fun value => OptionSpec.ofCollected seen (store value) last >>=
    ofParts reference) fun n => ?_
  calc collect none (before ++ (key, n) :: after) >>= (fun collected =>
        OptionSpec.ofCollected [] {} collected.2 >>= ofParts collected.1)
      = n.settle >>= fun v => OptionSpec.ofCollected [] {} (first ++ (field, v) :: last) >>=
          ofParts reference := by rw [hcollect, bind_assoc]; rfl
    _ = (n.settle >>= fun v => OptionSpec.setField .collected field v b) >>= fun b =>
          OptionSpec.ofCollected seen b last >>= ofParts reference := by
        rw [bind_assoc]
        exact bind_congr fun v => by rw [hfocus (field, v) rfl, bind_assoc]
    _ = part.read n >>= fun value => OptionSpec.ofCollected seen (store value) last >>=
          ofParts reference := by
        rw [hstore, bind_assoc]
        rfl

/-! ### Places -/

namespace Shape

theorem field_focuses (s : Shape) {field : String} {part : Shape} (hpart : (field, part) ∈ s.parts)
    {key : Node} (hkey : key.readFieldName = .ok field) (before after : List (Node × Node))
    (n : Node) (a : s.Result) (h : s.read (.map (before ++ (key, n) :: after)) = .ok a) :
    Focuses (fun n => s.read (.map (before ++ (key, n) :: after))) part.read := by
  cases s with
  | document => exact Document.ofNode_focuses hpart hkey before after n a h
  | components => exact readComponents_focuses hpart hkey before after n a h
  | command => exact Command.ofBody_focuses hpart hkey before after n a h
  | entry => exact OptionEntry.ofNode_focuses hpart hkey before after n a h
  | optionApi | commands | options | namedOptions | env | flag => cases hpart

theorem value_focuses (s : Shape) {part : Shape} (hpart : s.values = some part) (key : Node)
    (before after : List (Node × Node)) (n : Node) (a : s.Result)
    (h : s.read (.map (before ++ (key, n) :: after)) = .ok a) :
    Focuses (fun n => s.read (.map (before ++ (key, n) :: after))) part.read := by
  cases s with
  | commands =>
    cases hpart
    exact Commands.ofEntries_focuses key before after n {} a h
  | options =>
    cases hpart
    exact readNamedEntries_focuses key before after n a h
  | namedOptions =>
    cases hpart
    exact readNamedOptions_focuses key before after n a h
  | document | optionApi | components | command | entry | env | flag => cases hpart

theorem item_focuses (s : Shape) {part : Shape} (hpart : s.items = some part)
    (before after : List Node) (n : Node) (a : s.Result)
    (h : s.read (.seq (before ++ n :: after)) = .ok a) :
    Focuses (fun n => s.read (.seq (before ++ n :: after))) part.read := by
  cases s with
  | options =>
    cases hpart
    exact readEach_focuses OptionEntry.ofNode before after n a h
  | document | optionApi | components | commands | command | namedOptions | entry | env | flag =>
    cases hpart

theorem read_tagged (s : Shape) (h : s.ignoresTags = true) (tag : String) {n : Node}
    (hn : n.IsCollection) : s.read (.tagged tag n) = s.read n := by
  have hoptional : (Node.tagged tag n).readOptional = .ok (some (.tagged tag n)) := rfl
  cases s with
  | document => rfl
  | optionApi =>
    simp only [read, readUnlessAbsent, hoptional, hn.readOptional, ok_bind]
    rfl
  | components =>
    simp only [read, readUnlessAbsent, hoptional, hn.readOptional, ok_bind]
    rfl
  | commands => rw [read, Commands.ofNode]
  | command => rw [read, Command.ofBody]
  | namedOptions =>
    simp only [read, readNamedOptions, hoptional, hn.readOptional, ok_bind]
    rfl
  | entry => rfl
  | options | env | flag => cases h

end Shape

/-- A tree with a place in it that is read is read through what stands there. -/
theorem Place.focus {inner outer : Shape} {around : Node → Node} (place : Place inner outer around)
    {n : Node} (hn : n.IsCollection) (a : outer.Result) (h : outer.read (around n) = .ok a) :
    Focuses (fun n => outer.read (around n)) inner.read := by
  -- from the whole tree down to the place; that the tree is read says so of each part on the way
  induction place with
  | here => exact .refl _
  | tagged tag htags below ih =>
    rw [Shape.read_tagged _ htags tag (below.isCollection hn)] at h
    obtain ⟨rest, hrest⟩ := ih a h
    refine ⟨rest, fun n hn => ?_⟩
    exact (Shape.read_tagged _ htags tag (below.isCollection hn)).trans (hrest n hn)
  | field before after hpart hkey below ih =>
    exact (Shape.field_focuses _ hpart hkey before after _ a h).through
      (fun _ => below.isCollection) hn h ih
  | value before after hpart below ih =>
    exact (Shape.value_focuses _ hpart _ before after _ a h).through
      (fun _ => below.isCollection) hn h ih
  | item before after hpart below ih =>
    exact (Shape.item_focuses _ hpart before after _ a h).through
      (fun _ => below.isCollection) hn h ih

/-- What is read at a place is all that matters of it. -/
theorem Place.congr {inner outer : Shape} {around : Node → Node} (place : Place inner outer around)
    {n n' : Node} (hn : n.IsCollection) (hn' : n'.IsCollection)
    (h : ∀ b, inner.read n = .ok b → inner.read n' = .ok b) {a : outer.Result}
    (hread : outer.read (around n) = .ok a) : outer.read (around n') = .ok a := by
  obtain ⟨rest, hrest⟩ := place.focus hn a hread
  obtain ⟨b, hb, ha⟩ := bind_eq_ok ((hrest n hn).symm.trans hread)
  refine (hrest n' hn').trans ?_
  rw [h b hb, ok_bind, ha]

end CommandSpec
