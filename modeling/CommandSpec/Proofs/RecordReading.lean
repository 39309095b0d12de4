import CommandSpec.Decode.OptionEntry
import CommandSpec.Proofs.Runs

/-! Reading a record field by field. Records whose fields stand in the document and those whose
fields were collected first are read alike (`ReadsRecord`). So what is read of one field does not
hang on how it is written (`ReadsRecord.congr`), nor on what else it might have held
(`ReadsRecord.focus`), and what it stores is there in the end, since no field is read twice
(`ReadsRecord.stores`). -/
namespace CommandSpec

variable {α β : Type}

/-- A reader of records takes each known field once and in order. What the entries are, and what
is looked at of an unknown one, is left open. -/
structure ReadsRecord (known : List String) (setField : String → Node → α → Except DecodeError α)
    (name : β → Except DecodeError String) (value : β → Node) (skip : β → Except DecodeError Unit)
    (read : List String → α → List β → Except DecodeError α) : Prop where
  nil : ∀ seen a, read seen a [] = .ok a
  cons : ∀ seen a e rest, read seen a (e :: rest) = name e >>= fun field =>
    if known.contains field then
      if seen.contains field then .error (.duplicateField field)
      else setField field (value e) a >>= fun a => read (field :: seen) a rest
    else skip e >>= fun _ => read seen a rest

theorem readFields_readsRecord (known : List String)
    (setField : String → Node → α → Except DecodeError α) :
    ReadsRecord known setField (fun e : Node × Node => e.1.readFieldName) Prod.snd
      (fun e => e.2.skip) (readFields known setField) where
  nil _ _ := rfl
  cons seen a e rest := by
    refine bind_congr fun field => ?_
    split
    · split <;> rfl
    · rfl

theorem OptionSpec.ofCollected_readsRecord :
    ReadsRecord fieldNames (setField .collected) (fun e : String × Node => .ok e.1) Prod.snd
      (fun _ => .ok ()) ofCollected where
  nil _ _ := rfl
  cons seen o e rest := by
    simp only [ofCollected, ok_bind]
    split
    · split <;> rfl
    · rfl

namespace ReadsRecord

variable {known : List String} {setField : String → Node → α → Except DecodeError α}
  {name : β → Except DecodeError String} {value : β → Node} {skip : β → Except DecodeError Unit}
  {read : List String → α → List β → Except DecodeError α}

/-- A known field may be written in any way that sets it alike. -/
theorem congr (hr : ReadsRecord known setField name value skip read) {field : String}
    (hfield : field ∈ known) {e e' : β} (he : name e = .ok field) (he' : name e' = .ok field)
    (hset : ∀ a, setField field (value e) a = setField field (value e') a)
    (before after : List β) (seen : List String) (a : α) :
    read seen a (before ++ e :: after) = read seen a (before ++ e' :: after) := by
  induction before generalizing seen a with
  | nil => simp [hr.cons, he, he', hfield, hset]
  | cons first before ih => simp only [List.cons_append, hr.cons, ih]

/-- Of the fields that were read only those matter that are still to come. -/
theorem seen_congr (hr : ReadsRecord known setField name value skip read) (es : List β)
    {seen seen' : List String}
    (hseen : ∀ e ∈ es, ∀ field, name e = .ok field → (field ∈ seen ↔ field ∈ seen')) (a : α) :
    read seen a es = read seen' a es := by
  induction es generalizing seen seen' a with
  | nil => rw [hr.nil, hr.nil]
  | cons e rest ih =>
    obtain ⟨hhead, hrest⟩ := List.forall_mem_cons.mp hseen
    rw [hr.cons, hr.cons, ih hrest]
    refine bind_congr_ok _ _ _ fun field he => ?_
    have hcontains : seen.contains field = seen'.contains field := by
      rw [Bool.eq_iff_iff]
      simpa using hhead field he
    have hlater (b : α) : read (field :: seen) b rest = read (field :: seen') b rest :=
      ih (fun e he other hother => by simp [hrest e he other hother]) b
    simp only [hcontains, hlater]

/-- What a reader got past leaves it in one state, whatever follows. -/
theorem append (hr : ReadsRecord known setField name value skip read) (before rest : List β)
    (seen : List String) (a a' : α) (h : read seen a (before ++ rest) = .ok a') :
    ∃ b seen', ∀ rest, read seen a (before ++ rest) = read seen' b rest := by
  induction before generalizing seen a with
  | nil => exact ⟨a, seen, fun rest => rfl⟩
  | cons first before ih =>
    rw [List.cons_append, hr.cons] at h
    obtain ⟨other, hother, h⟩ := bind_eq_ok h
    simp only [List.cons_append, hr.cons, hother, ok_bind]
    split at h
    · split at h
      · cases h
      · obtain ⟨b, hb, h⟩ := bind_eq_ok h
        simp only [*, if_true, ok_bind]
        exact ih _ b h
    · obtain ⟨_, hskip, h⟩ := bind_eq_ok h
      simp only [*, ok_bind]
      exact ih seen a h

/-- A field that was read was set at some point, and nothing but fields behind it came after. -/
theorem set_of_ok (hr : ReadsRecord known setField name value skip read) {field : String}
    (hfield : field ∈ known) {e : β} (he : name e = .ok field) (before after : List β)
    (seen : List String) (a a' : α) (h : read seen a (before ++ e :: after) = .ok a') :
    ∃ b b' seen', setField field (value e) b = .ok b' ∧ field ∈ seen' ∧
      read seen' b' after = .ok a' := by
  obtain ⟨b, past, happend⟩ := hr.append before (e :: after) seen a a' h
  rw [happend, hr.cons, he, ok_bind, if_pos (by simpa using hfield)] at h
  split at h
  · cases h
  · obtain ⟨b', hb, h⟩ := bind_eq_ok h
    exact ⟨b, b', field :: past, hb, List.mem_cons_self .., h⟩

/-- A reader that got past a field reads any other value of that field in the same state. -/
theorem focus (hr : ReadsRecord known setField name value skip read) {field : String}
    (hfield : field ∈ known) {e : β} (he : name e = .ok field) (before after : List β)
    (seen : List String) (a a' : α) (h : read seen a (before ++ e :: after) = .ok a') :
    ∃ b seen', ∀ e', name e' = .ok field →
      read seen a (before ++ e' :: after) =
        setField field (value e') b >>= fun b' => read seen' b' after := by
  have hcontains : known.contains field = true := by simpa using hfield
  obtain ⟨b, past, happend⟩ := hr.append before (e :: after) seen a a' h
  rw [happend, hr.cons, he, ok_bind, if_pos hcontains] at h
  split at h
  · cases h
  · rename_i hnew
    refine ⟨b, field :: past, fun e' he' => ?_⟩
    rw [happend, hr.cons, he', ok_bind, if_pos hcontains, if_neg hnew]

/-- What only one field changes stays once that field was seen. -/
theorem keeps_seen (hr : ReadsRecord known setField name value skip read) {field : String}
    {γ : Type} (stored : α → γ)
    (hother : ∀ other v a a', other ∈ known → other ≠ field → setField other v a = .ok a' →
      stored a' = stored a)
    (entries : List β) (seen : List String) (hseen : field ∈ seen) (a a' : α)
    (h : read seen a entries = .ok a') : stored a' = stored a := by
  induction entries generalizing seen a with
  | nil =>
    rw [hr.nil] at h
    cases h
    rfl
  | cons e rest ih =>
    rw [hr.cons] at h
    obtain ⟨other, -, h⟩ := bind_eq_ok h
    split at h
    · rename_i hknown
      split at h
      · cases h
      · rename_i hnew
        obtain ⟨b, hb, h⟩ := bind_eq_ok h
        have hne : other ≠ field := fun hsame => hnew (by simpa [hsame] using hseen)
        calc stored a' = stored b := ih _ (List.mem_cons_of_mem _ hseen) b h
          _ = stored a := hother other _ a b (by simpa using hknown) hne hb
    · obtain ⟨_, -, h⟩ := bind_eq_ok h
      exact ih seen hseen a h

/-- What setting a field stores is there when the whole record is read. -/
theorem stores (hr : ReadsRecord known setField name value skip read) {field : String}
    (hfield : field ∈ known) {γ : Type} (stored : α → γ)
    (hother : ∀ other v a a', other ∈ known → other ≠ field → setField other v a = .ok a' →
      stored a' = stored a)
    {e : β} (he : name e = .ok field) {c : γ}
    (hset : ∀ a a', setField field (value e) a = .ok a' → stored a' = c)
    (before after : List β) (seen : List String) (a a' : α)
    (h : read seen a (before ++ e :: after) = .ok a') : stored a' = c := by
  obtain ⟨b, b', seen', hb, hseen, h⟩ := hr.set_of_ok hfield he before after seen a a' h
  exact (hr.keeps_seen stored hother after seen' hseen b' a' h).trans (hset b b' hb)

end ReadsRecord

end CommandSpec
