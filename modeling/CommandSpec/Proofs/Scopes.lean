import Mathlib.Data.List.Basic
import CommandSpec.Spec.Report

/-! What a message does on its way through a scope. It reaches the report under the path of the
scope, and of the flags it raises those of base trackers are told by `Scope.bases` and those of
trackers opened from others by `Scope.ownFlags`. Opening the field of a scope keeps the bases and
takes new flags for all trackers around it. -/
namespace CommandSpec

namespace Report

theorem isRaised_raise (r : Report) (flag f : Nat) :
    (r.raise flag).isRaised f = true ↔
      r.isRaised f = true ∨ (f = flag ∧ f < r.flags.length) := by
  unfold isRaised raise
  simp only [List.getD_eq_getElem?_getD, List.getElem?_set]
  by_cases hf : flag = f
  · subst hf
    by_cases hlt : flag < r.flags.length <;> simp [hlt]
  · simp [hf, Ne.symm hf]

/-- Some flags were added, none of them raised. -/
def Extends (r r' : Report) : Prop :=
  ∃ n, r' = { r with flags := r.flags ++ List.replicate n false }

theorem Extends.refl (r : Report) : r.Extends r := ⟨0, by simp⟩

theorem Extends.addFlag {r r' : Report} (h : r.Extends r') : r.Extends r'.addFlag := by
  obtain ⟨n, rfl⟩ := h
  exact ⟨n + 1, by simp [Report.addFlag, List.replicate_succ']⟩

theorem Extends.errors {r r' : Report} (h : r.Extends r') : r'.errors = r.errors := by
  obtain ⟨n, rfl⟩ := h
  rfl

theorem Extends.length_le {r r' : Report} (h : r.Extends r') :
    r.flags.length ≤ r'.flags.length := by
  obtain ⟨n, rfl⟩ := h
  simp

theorem Extends.isRaised {r r' : Report} (h : r.Extends r') (f : Nat) :
    r'.isRaised f = r.isRaised f := by
  obtain ⟨n, rfl⟩ := h
  unfold Report.isRaised
  simp only [List.getD_eq_getElem?_getD, List.getElem?_append, List.getElem?_replicate]
  split
  · rfl
  · rename_i hle
    rw [List.getElem?_eq_none (Nat.le_of_not_lt hle)]
    split <;> rfl

end Report

namespace Scope

/-- Field names on the way from the report. -/
def path : Scope → List String
  | place path => path
  | tracker _ _ inner => inner.path

/-- The flags of the base trackers that a message passes. -/
def bases : Scope → List Nat
  | place _ => []
  | tracker flag base inner => base.getD flag :: inner.bases

/-- The flags of the other trackers that a message passes. -/
def ownFlags : Scope → List Nat
  | place _ => []
  | tracker flag (some _) inner => flag :: inner.ownFlags
  | tracker _ none inner => inner.ownFlags

/-! ## Messages -/

theorem errors_emit (s : Scope) (message : String) (r : Report) :
    (s.emit message r).errors = r.errors ++ [⟨s.path, message⟩] := by
  induction s generalizing r with
  | place path => rfl
  | tracker flag base inner ih => exact ih _

theorem length_flags_emit (s : Scope) (message : String) (r : Report) :
    (s.emit message r).flags.length = r.flags.length := by
  induction s generalizing r with
  | place path => rfl
  | tracker flag base inner ih =>
    simp only [emit, ih]
    simp [Report.raise]

/-- A message raises the flags of all trackers that it passes, and no others. -/
theorem isRaised_emit (s : Scope) (message : String) (r : Report) (f : Nat) :
    (s.emit message r).isRaised f = true ↔
      r.isRaised f = true ∨ (f < r.flags.length ∧ (f ∈ s.bases ∨ f ∈ s.ownFlags)) := by
  induction s generalizing r with
  | place path => simp [emit, bases, ownFlags, Report.isRaised]
  | tracker flag base inner ih =>
    have hlength : (r.raise flag).flags.length = r.flags.length := by simp [Report.raise]
    have hlength' : ((r.raise flag).raise (base.getD flag)).flags.length = r.flags.length := by
      simp [Report.raise]
    rw [emit, ih, Report.isRaised_raise, Report.isRaised_raise, hlength, hlength']
    cases base with
    | none =>
      simp only [bases, ownFlags, Option.getD_none, List.mem_cons]
      tauto
    | some base =>
      simp only [bases, ownFlags, Option.getD_some, List.mem_cons]
      tauto

/-! ## Fields -/

theorem path_field (s : Scope) (name : String) (r : Report) :
    (s.field name r).1.path = s.path ++ [name] := by
  induction s with
  | place path => rfl
  | tracker flag base inner ih => exact ih

/-- The trackers around a field have the same bases as those around the outer scope. -/
theorem bases_field (s : Scope) (name : String) (r : Report) :
    (s.field name r).1.bases = s.bases := by
  induction s with
  | place path => rfl
  | tracker flag base inner ih => exact congrArg (base.getD flag :: ·) ih

theorem extends_field (s : Scope) (name : String) (r : Report) :
    r.Extends (s.field name r).2 := by
  induction s with
  | place path => exact .refl r
  | tracker flag base inner ih => exact ih.addFlag

/-- All trackers around a field have flags that were not there before. -/
theorem ownFlags_field (s : Scope) (name : String) (r : Report) (f : Nat)
    (h : f ∈ (s.field name r).1.ownFlags) :
    r.flags.length ≤ f ∧ f < (s.field name r).2.flags.length := by
  induction s with
  | place path => cases h
  | tracker flag base inner ih =>
    have hlength : ((tracker flag base inner).field name r).2.flags.length =
        (inner.field name r).2.flags.length + 1 := by
      simp [field, Report.addFlag]
    rw [hlength]
    rcases List.mem_cons.mp h with rfl | h
    · exact ⟨(inner.extends_field name r).length_le, Nat.lt_succ_self _⟩
    · exact ⟨(ih h).1, Nat.lt_succ_of_lt (ih h).2⟩

/-- A tracker around a field is no base. -/
theorem field_ne_base (s : Scope) (name : String) (r : Report) (flag : Nat) (inner : Scope) :
    (s.field name r).1 ≠ tracker flag none inner := by
  cases s <;> simp [field]

end Scope
end CommandSpec
