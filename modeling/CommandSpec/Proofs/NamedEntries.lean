import CommandSpec.Proofs.DumpRoundTrip
import CommandSpec.Proofs.Visits

/-! Entries put under their names. Entries of different names may be put in in either order, and
one of a new name joins those that are there; sibling commands are such entries
(`CommandForest.rows`). So a map whose keys are read as different names is read alike in every
order (`ReadsMap.perm`). -/
namespace CommandSpec

variable {α β : Type}

theorem name_lt_asymm {name other : String} (h : name < other) : ¬other < name :=
  fun h' => String.lt_irrefl _ (String.lt_trans h h')

theorem name_lt_ne {name other : String} (h : name < other) : name ≠ other :=
  fun he => String.lt_irrefl _ (he ▸ h)

theorem name_trichotomy (name other : String) : name < other ∨ name = other ∨ other < name := by
  by_cases h : name < other
  · exact Or.inl h
  · by_cases h' : other < name
    · exact Or.inr (Or.inr h')
    · exact Or.inr (Or.inl (String.le_antisymm h' h))

theorem insertEntry_of_lt {name kept : String} (h : name < kept) (x z : α)
    (rest : List (String × α)) :
    insertEntry name x ((kept, z) :: rest) = (name, x) :: (kept, z) :: rest := if_pos h

theorem insertEntry_self (name : String) (x z : α) (rest : List (String × α)) :
    insertEntry name x ((name, z) :: rest) = (name, x) :: rest := by
  rw [insertEntry, if_neg (String.lt_irrefl name), if_pos rfl]

theorem insertEntry_of_gt {name kept : String} (h : kept < name) (x z : α)
    (rest : List (String × α)) :
    insertEntry name x ((kept, z) :: rest) = (kept, z) :: insertEntry name x rest := by
  rw [insertEntry, if_neg (name_lt_asymm h), if_neg (name_lt_ne h).symm]

private theorem insertEntry_comm_of_lt {name other : String} (h : name < other) (x y : α)
    (entries : List (String × α)) :
    insertEntry name x (insertEntry other y entries) =
      insertEntry other y (insertEntry name x entries) := by
  induction entries with
  | nil =>
    have hleft : insertEntry name x [(other, y)] = [(name, x), (other, y)] := insertEntry_of_lt h ..
    have hright : insertEntry other y [(name, x)] = [(name, x), (other, y)] :=
      insertEntry_of_gt h ..
    exact hleft.trans hright.symm
  | cons head rest ih =>
    obtain ⟨kept, z⟩ := head
    -- where each name stands towards the first one decides what happens to it
    rcases name_trichotomy name kept with hn | rfl | hn
    · rw [insertEntry_of_lt hn, insertEntry_of_gt h]
      rcases name_trichotomy other kept with ho | rfl | ho
      · rw [insertEntry_of_lt ho, insertEntry_of_lt h]
      · rw [insertEntry_self, insertEntry_of_lt h]
      · rw [insertEntry_of_gt ho, insertEntry_of_lt hn]
    · rw [insertEntry_of_gt h, insertEntry_self, insertEntry_self, insertEntry_of_gt h]
    · have ho : kept < other := String.lt_trans hn h
      rw [insertEntry_of_gt ho, insertEntry_of_gt hn, insertEntry_of_gt hn, insertEntry_of_gt ho,
        ih]

theorem insertEntry_comm {name other : String} (hne : name ≠ other) (x y : α)
    (entries : List (String × α)) :
    insertEntry name x (insertEntry other y entries) =
      insertEntry other y (insertEntry name x entries) := by
  rcases name_trichotomy name other with h | h | h
  · exact insertEntry_comm_of_lt h x y entries
  · exact absurd h hne
  · exact (insertEntry_comm_of_lt h y x entries).symm

/-- An entry of a new name joins the others. -/
theorem insertEntry_perm (name : String) (x : α) (entries : List (String × α))
    (h : name ∉ entries.map Prod.fst) :
    (insertEntry name x entries).Perm ((name, x) :: entries) := by
  induction entries with
  | nil => exact .refl _
  | cons head rest ih =>
    obtain ⟨other, kept⟩ := head
    obtain ⟨hne, hrest⟩ : name ≠ other ∧ name ∉ rest.map Prod.fst := by simpa using h
    rcases name_trichotomy name other with hlt | he | hlt
    · rw [insertEntry_of_lt hlt]
    · exact absurd he hne
    · rw [insertEntry_of_gt hlt]
      exact ((ih hrest).cons _).trans (.swap ..)

theorem NameMap.insert_comm {name other : String} (hne : name ≠ other) (x y : α) (m : NameMap α) :
    (m.insert other y).insert name x = (m.insert name x).insert other y := by
  obtain ⟨entries, ordered⟩ := m
  simp only [insert, insertEntry_comm hne]

/-! ## Sibling commands -/

namespace CommandForest

/-- The commands on the top level, each with its sub-commands. -/
def rows : CommandForest → List (String × (Declaration × CommandForest))
  | nil => []
  | node name declaration children siblings => (name, declaration, children) :: siblings.rows

theorem rows_injective (f g : CommandForest) (h : f.rows = g.rows) : f = g := by
  induction f generalizing g with
  | nil =>
    cases g with
    | nil => rfl
    | node => cases h
  | node name declaration children siblings _ ih =>
    cases g with
    | nil => cases h
    | node other kept below rest =>
      obtain ⟨hhead, hrest⟩ := List.cons.inj h
      cases hhead
      rw [ih rest hrest]

theorem rows_insert (f : CommandForest) (name : String) (declaration : Declaration)
    (children : CommandForest) :
    (f.insert name declaration children).rows =
      insertEntry name (declaration, children) f.rows := by
  induction f with
  | nil => rfl
  | node other kept below siblings _ ih =>
    simp only [insert, rows, insertEntry, ← ih]
    split
    · rfl
    · split <;> rfl

theorem names_eq_rows (f : CommandForest) : f.names = f.rows.map Prod.fst := by
  induction f with
  | nil => rfl
  | node name declaration children siblings _ ih => rw [names, rows, List.map_cons, ih]

theorem visits_eq_rows (f : CommandForest) (path : List String) :
    f.visits path = f.rows.flatMap fun r =>
      ⟨path ++ [r.1], r.2.1, r.2.2⟩ :: r.2.2.visits (path ++ [r.1]) := by
  induction f with
  | nil => rfl
  | node name declaration children siblings _ ih =>
    rw [visits, rows, List.flatMap_cons, ih, List.cons_append]

end CommandForest

theorem Commands.insert_comm {name other : String} (hne : name ≠ other) (x y : Command)
    (c : Commands) : (c.insert other y).insert name x = (c.insert name x).insert other y := by
  refine Commands.eq_of_forest (CommandForest.rows_injective _ _ ?_)
  simp only [insert, CommandForest.rows_insert, insertEntry_comm hne]

/-! ## Maps -/

/-- A reader of maps puts the entries in one by one, under the names that their keys are read as.
How a body is read is left open. -/
structure ReadsMap (body : Node → Except DecodeError β) (put : String → β → α → α)
    (read : α → List (Node × Node) → Except DecodeError α) : Prop where
  nil : ∀ a, read a [] = .ok a
  cons : ∀ a e rest, read a (e :: rest) = e.1.readString >>= fun name =>
    body e.2 >>= fun b => read (put name b a) rest

theorem Commands.ofEntries_readsMap :
    ReadsMap Command.ofBody (fun name command c => c.insert name command) ofEntries where
  nil _ := by rw [ofEntries]
  cons a e rest := by rw [ofEntries]

theorem readEntryMap_readsMap :
    ReadsMap OptionEntry.ofNode (fun name entry m => m.insert name entry) readEntryMap where
  nil _ := rfl
  cons _ _ _ := rfl

/-- The keys of the entries are not read as one name. -/
def NamesDiffer (e e' : Node × Node) : Prop :=
  ∀ name, e.1.readString = .ok name → e'.1.readString ≠ .ok name

theorem NamesDiffer.symm {e e' : Node × Node} (h : NamesDiffer e e') : NamesDiffer e' e :=
  fun name h' he => h name he h'

namespace ReadsMap

variable {body : Node → Except DecodeError β} {put : String → β → α → α}
  {read : α → List (Node × Node) → Except DecodeError α}

theorem cons_eq_ok_iff (hr : ReadsMap body put read) (a c : α) (e : Node × Node)
    (rest : List (Node × Node)) :
    read a (e :: rest) = .ok c ↔
      ∃ name b, e.1.readString = .ok name ∧ body e.2 = .ok b ∧
        read (put name b a) rest = .ok c := by
  rw [hr.cons]
  constructor
  · intro h
    obtain ⟨name, hname, h⟩ := bind_eq_ok h
    obtain ⟨b, hb, h⟩ := bind_eq_ok h
    exact ⟨name, b, hname, hb, h⟩
  · rintro ⟨name, b, hname, hb, h⟩
    rw [hname, ok_bind, hb, ok_bind, h]

/-- Entries of different names may stand in any order. -/
theorem perm (hr : ReadsMap body put read)
    (hcomm : ∀ {name other}, name ≠ other → ∀ x y a,
      put name x (put other y a) = put other y (put name x a))
    {es es' : List (Node × Node)} (h : es.Perm es') (hd : es.Pairwise NamesDiffer) (a c : α)
    (hread : read a es = .ok c) : read a es' = .ok c := by
  induction h generalizing a with
  | nil => exact hread
  | cons e _ ih =>
    obtain ⟨name, b, hname, hb, hread⟩ := (hr.cons_eq_ok_iff ..).mp hread
    exact (hr.cons_eq_ok_iff ..).mpr
      ⟨name, b, hname, hb, ih (List.pairwise_cons.mp hd).2 _ hread⟩
  | swap e e' rest =>
    obtain ⟨other, y, hother, hy, hread⟩ := (hr.cons_eq_ok_iff ..).mp hread
    obtain ⟨name, x, hname, hx, hread⟩ := (hr.cons_eq_ok_iff ..).mp hread
    have hne : name ≠ other := by
      rintro rfl
      exact (List.pairwise_cons.mp hd).1 e (List.mem_cons_self ..) name hother hname
    rw [hcomm hne] at hread
    exact (hr.cons_eq_ok_iff ..).mpr
      ⟨name, x, hname, hx, (hr.cons_eq_ok_iff ..).mpr ⟨other, y, hother, hy, hread⟩⟩
  | trans h _ ih ih' =>
    exact ih' (h.pairwise hd NamesDiffer.symm) _ (ih hd _ hread)

end ReadsMap
end CommandSpec
