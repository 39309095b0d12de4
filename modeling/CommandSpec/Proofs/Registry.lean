import CommandSpec.Bindings.Plan
import CommandSpec.Proofs.Runs

/-! Claiming names one after the other. All claims go through exactly when the names are
pairwise different and new to the registry (`claimAll_eq_ok_iff`); a failure names two
claims of one name that were really made (`claimAll_clash`). -/
namespace CommandSpec

/-- The error reports a name that two of the claims share, the earlier one first. -/
def PlanError.Clash (claims : List (String × String)) : PlanError → Prop
  | .duplicateName name first second => [(name, first), (name, second)].Sublist claims
  | _ => False

theorem PlanError.Clash.mono {claims more : List (String × String)} {e : PlanError}
    (h : e.Clash claims) (hs : claims.Sublist more) : e.Clash more := by
  cases e with
  | duplicateName name first second => exact List.Sublist.trans h hs
  | _ => exact h

/-- Claims that are reported to share a name do share one. -/
theorem PlanError.Clash.not_nodup {claims : List (String × String)} {e : PlanError}
    (h : e.Clash claims) : ¬(claims.map Prod.fst).Nodup := by
  cases e with
  | duplicateName name first second =>
    intro hn
    have hnames : [name, name].Sublist (claims.map Prod.fst) := List.Sublist.map Prod.fst h
    have htwice := hnames.nodup hn
    simp at htwice
  | _ => exact absurd h id

namespace Registry

def claimAll (r : Registry) (claims : List (String × String)) : Except PlanError Registry :=
  claims.foldlM (fun r c => r.claim c.1 c.2) r

/-- The claimed names are pairwise different, and none is taken. -/
def Free (r : Registry) (claims : List (String × String)) : Prop :=
  (claims.map Prod.fst).Nodup ∧ ∀ name ∈ claims.map Prod.fst, name ∉ r.map Prod.fst

theorem lookup_eq_none_iff (r : Registry) (name : String) :
    r.lookup name = none ↔ name ∉ r.map Prod.fst := by
  rw [List.lookup_eq_none_iff, List.mem_map]
  constructor
  · rintro h ⟨c, hc, rfl⟩
    exact bne_iff_ne.mp (h c hc) rfl
  · intro h c hc
    exact bne_iff_ne.mpr fun e => h ⟨c, hc, e.symm⟩

theorem mem_of_lookup (r : Registry) (name first : String) (h : r.lookup name = some first) :
    (name, first) ∈ r := by
  obtain ⟨before, after, rfl, _⟩ := List.lookup_eq_some_iff.mp h
  simp

theorem claim_eq_ok_iff (r r' : Registry) (name owner : String) :
    r.claim name owner = .ok r' ↔ name ∉ r.map Prod.fst ∧ r' = (name, owner) :: r := by
  rw [← lookup_eq_none_iff]
  unfold claim
  split
  · rename_i first h
    simp [h]
  · rename_i h
    simp [h, eq_comm]

theorem claim_clash (r : Registry) (name owner : String) (e : PlanError)
    (h : r.claim name owner = .error e) : e.Clash (r.reverse ++ [(name, owner)]) := by
  unfold claim at h
  split at h
  · rename_i first hl
    cases h
    have hm := List.mem_reverse.mpr (mem_of_lookup r name first hl)
    exact (List.singleton_sublist.mpr hm).append (List.Sublist.refl [(name, owner)])
  · cases h

theorem claimAll_cons (r : Registry) (c : String × String) (claims : List (String × String)) :
    r.claimAll (c :: claims) = (r.claim c.1 c.2 >>= fun r => r.claimAll claims) := rfl

theorem free_nil_iff (claims : List (String × String)) :
    Free [] claims ↔ (claims.map Prod.fst).Nodup := by
  simp [Free]

theorem free_append_iff (r : Registry) (claims more : List (String × String)) :
    r.Free (claims ++ more) ↔ r.Free claims ∧ Free (claims.reverse ++ r) more := by
  simp only [Free, List.map_append, List.nodup_append, List.mem_append, List.map_reverse,
    List.mem_reverse]
  grind

theorem free_cons_iff (r : Registry) (c : String × String) (claims : List (String × String)) :
    r.Free (c :: claims) ↔ c.1 ∉ r.map Prod.fst ∧ Free (c :: r) claims := by
  rw [← List.singleton_append, free_append_iff]
  simp [Free]

theorem claimAll_eq_ok_iff (r r' : Registry) (claims : List (String × String)) :
    r.claimAll claims = .ok r' ↔ r.Free claims ∧ r' = claims.reverse ++ r := by
  induction claims generalizing r with
  | nil => simp [claimAll, Free, pure, Except.pure, eq_comm]
  | cons c claims ih =>
    rw [claimAll_cons, free_cons_iff, List.reverse_cons, List.append_assoc, List.singleton_append]
    constructor
    · intro h
      obtain ⟨r₁, hc, h⟩ := bind_eq_ok h
      obtain ⟨hn, rfl⟩ := (claim_eq_ok_iff r r₁ c.1 c.2).mp hc
      obtain ⟨hfree, rfl⟩ := (ih _).mp h
      exact ⟨⟨hn, hfree⟩, rfl⟩
    · rintro ⟨⟨hn, hfree⟩, rfl⟩
      rw [(claim_eq_ok_iff r _ c.1 c.2).mpr ⟨hn, rfl⟩]
      exact (ih _).mpr ⟨hfree, rfl⟩

theorem claimAll_clash (r : Registry) (claims : List (String × String)) (e : PlanError)
    (h : r.claimAll claims = .error e) : e.Clash (r.reverse ++ claims) := by
  induction claims generalizing r with
  | nil => cases h
  | cons c claims ih =>
    rw [claimAll_cons] at h
    rcases bind_eq_error h with hc | ⟨r₁, hc, h⟩
    · refine (claim_clash r c.1 c.2 e hc).mono ?_
      exact (List.Sublist.refl _).append (List.singleton_sublist.mpr (List.mem_cons_self ..))
    · obtain ⟨-, rfl⟩ := (claim_eq_ok_iff r r₁ c.1 c.2).mp hc
      simpa using ih _ h

end Registry
end CommandSpec
