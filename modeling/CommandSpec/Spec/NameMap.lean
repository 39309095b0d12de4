/-! Finite maps from names, kept as a list in strictly ascending name order. -/
namespace CommandSpec

/-- Puts an entry in its place; an entry of the same name gives way. -/
def insertEntry (name : String) (value : α) : List (String × α) → List (String × α)
  | [] => [(name, value)]
  | (other, kept) :: rest =>
    if name < other then (name, value) :: (other, kept) :: rest
    else if name = other then (name, value) :: rest
    else (other, kept) :: insertEntry name value rest

theorem mem_insertEntry {name : String} {value : α} {entries : List (String × α)}
    {e : String × α} (h : e ∈ insertEntry name value entries) :
    e = (name, value) ∨ e ∈ entries := by
  induction entries with
  | nil => simp [insertEntry] at h; simp [h]
  | cons head rest ih =>
    obtain ⟨other, kept⟩ := head
    unfold insertEntry at h
    split at h
    · simp at h; rcases h with rfl | rfl | h <;> simp [*]
    · split at h
      · simp at h; rcases h with rfl | h <;> simp [*]
      · simp at h
        rcases h with rfl | h
        · simp
        · rcases ih h with h | h <;> simp [h]

theorem insertEntry_pairwise {name : String} {value : α} {entries : List (String × α)}
    (h : entries.Pairwise (·.1 < ·.1)) :
    (insertEntry name value entries).Pairwise (·.1 < ·.1) := by
  induction entries with
  | nil => simp [insertEntry]
  | cons head rest ih =>
    obtain ⟨other, kept⟩ := head
    rw [List.pairwise_cons] at h
    unfold insertEntry
    split
    · rename_i hlt
      refine List.pairwise_cons.2 ⟨fun e he => ?_, List.pairwise_cons.2 h⟩
      rcases List.mem_cons.1 he with rfl | he
      · exact hlt
      · exact String.lt_trans hlt (h.1 e he)
    · split
      · rename_i heq
        exact List.pairwise_cons.2 ⟨fun e he => heq ▸ h.1 e he, h.2⟩
      · rename_i hlt hne
        refine List.pairwise_cons.2 ⟨fun e he => ?_, ih h.2⟩
        rcases mem_insertEntry he with rfl | he
        · exact Decidable.byContradiction fun hn =>
            hne (String.le_antisymm hn hlt)
        · exact h.1 e he

structure NameMap (α : Type) where
  entries : List (String × α)
  ordered : entries.Pairwise (·.1 < ·.1)
  deriving DecidableEq

namespace NameMap

def empty : NameMap α := ⟨[], .nil⟩

instance : Inhabited (NameMap α) := ⟨empty⟩

def isEmpty (m : NameMap α) : Bool := m.entries.isEmpty

def size (m : NameMap α) : Nat := m.entries.length

def find? (m : NameMap α) (name : String) : Option α := m.entries.lookup name

def insert (m : NameMap α) (name : String) (value : α) : NameMap α :=
  ⟨insertEntry name value m.entries, insertEntry_pairwise m.ordered⟩

end NameMap
end CommandSpec
