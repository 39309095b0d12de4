import CommandSpec.Yaml.Scalar

/-! What plain scalars stand for. An integer of 64 bits reads back from its decimal, and what
stands for no other value stands for its own text. -/
namespace CommandSpec.Yaml

/-- Digits are read as the number they write. -/
theorem readNat?_digits (cs : List Char) (hne : cs ≠ [])
    (hcs : ∀ c ∈ cs, c.isDigit = true) : readNat? 10 cs = some (Nat.ofDigitChars 10 cs 0) := by
  -- the fold starts with what was read so far
  have hfold (n : Nat) : cs.foldl (fun n c => n.bind fun n => (digitOf? c).bind fun d =>
      if d < 10 then some (n * 10 + d) else none) (some n) =
        some (Nat.ofDigitChars 10 cs n) := by
    clear hne
    induction cs generalizing n with
    | nil => rfl
    | cons c cs ih =>
      obtain ⟨hc, hrest⟩ := List.forall_mem_cons.mp hcs
      have hdigit : digitOf? c = some (c.toNat - '0'.toNat) := by
        unfold digitOf?
        rw [if_pos hc]
        rfl
      have hlt : c.toNat - '0'.toNat < 10 := by
        have hle : c.toNat ≤ 57 := (Char.isDigit_iff_toNat.mp hc).2
        change c.toNat - 48 < 10
        omega
      rw [List.foldl_cons, Option.bind_some, hdigit, Option.bind_some, if_pos hlt, ih hrest,
        Nat.ofDigitChars_cons, Nat.mul_comm]
  unfold readNat?
  rw [if_neg (by simpa using hne)]
  exact hfold 0

/-- A decimal starts with a digit, and with a zero only if that is all. -/
theorem toDigits_eq_cons (n : Nat) :
    ∃ c rest, Nat.toDigits 10 n = c :: rest ∧ c.isDigit = true ∧ (c = '0' → rest = []) := by
  induction n using Nat.strongRecOn with
  | ind n ih =>
    rw [Nat.toDigits_eq_if (by decide)]
    split
    · rename_i hn
      exact ⟨_, [], rfl, by simpa [Nat.isDigit_digitChar] using hn, fun _ => rfl⟩
    · rename_i hn
      obtain ⟨c, rest, hcons, hc, hzero⟩ := ih (n / 10) (by omega)
      refine ⟨c, rest ++ [(n % 10).digitChar], by rw [hcons]; rfl, hc, fun h0 => ?_⟩
      -- the digits before the last would be those of zero
      rw [hzero h0, h0] at hcons
      have hvalue : Nat.ofDigitChars 10 (Nat.toDigits 10 (n / 10)) 0 = n / 10 :=
        Nat.ofDigitChars_toDigits (by decide) (by decide)
      rw [hcons] at hvalue
      have hvalue : 0 = n / 10 := hvalue
      omega

theorem isPaddedDigits_cons {c : Char} {rest : List Char} (hc : c.isDigit = true)
    (hzero : c = '0' → rest = []) : isPaddedDigits (c :: rest) = false := by
  by_cases h0 : c = '0'
  · rw [hzero h0, h0]
    rfl
  · have hminus : c ≠ '-' := fun h => by rw [h] at hc; cases hc
    have hplus : c ≠ '+' := fun h => by rw [h] at hc; cases hc
    simp [isPaddedDigits, h0, hminus, hplus]

theorem readMagnitude?_toDigits (n : Nat) : readMagnitude? (Nat.toDigits 10 n) = some n := by
  have hread : readNat? 10 (Nat.toDigits 10 n) = some n := by
    rw [readNat?_digits _ Nat.toDigits_ne_nil
        (fun c hc => Nat.isDigit_of_mem_toDigits (by decide) (by decide) hc),
      Nat.ofDigitChars_toDigits (by decide) (by decide)]
  obtain ⟨c, rest, hcons, hc, hzero⟩ := toDigits_eq_cons n
  have hpadded := isPaddedDigits_cons hc hzero
  rw [hcons] at hread ⊢
  unfold readMagnitude?
  split
  case h_4 =>
    rw [hpadded]
    exact hread
  -- a base mark would be a second digit behind a zero
  all_goals
    rename_i h
    cases h
    cases hzero rfl

theorem readInteger?_toString (i : Int) : readInteger? (toString i).toList = some i := by
  rw [Int.toString_eq_repr]
  cases i with
  | ofNat n =>
    have hrepr : (Int.repr (Int.ofNat n)).toList = Nat.toDigits 10 n := Nat.toList_repr
    obtain ⟨c, rest, hcons, hc, -⟩ := toDigits_eq_cons n
    have hread := readMagnitude?_toDigits n
    rw [hrepr]
    rw [hcons] at hread ⊢
    unfold readInteger?
    split
    · rename_i h
      cases h
      cases hc
    · rename_i h
      cases h
      cases hc
    · rw [hread]
      rfl
  | negSucc n =>
    have hrepr : (Int.repr (Int.negSucc n)).toList = '-' :: Nat.toDigits 10 n.succ := by
      change ("-" ++ Nat.repr n.succ).toList = _
      rw [String.toList_append, Nat.toList_repr]
      rfl
    rw [hrepr]
    unfold readInteger?
    simp only [readMagnitude?_toDigits]
    rfl

/-- A text that is an integer is neither empty nor a word. -/
theorem resolvePlain_of_readInteger? {s : String} {i : Int} (h : readInteger? s.toList = some i)
    (hi : fits64 i = true) : resolvePlain s = .int i := by
  have hnull : (s.isEmpty || isNullWord s) = false := by
    refine Bool.eq_false_iff.mpr fun hs => ?_
    simp only [isNullWord, Bool.or_eq_true, String.isEmpty_iff, beq_iff_eq] at hs
    rcases hs with rfl | ((rfl | rfl) | rfl) | rfl <;> cases h
  have hbool : readBool? s = none := by
    unfold readBool?
    split
    · rename_i hs
      simp only [Bool.or_eq_true, beq_iff_eq] at hs
      rcases hs with (rfl | rfl) | rfl <;> cases h
    · split
      · rename_i hs
        simp only [Bool.or_eq_true, beq_iff_eq] at hs
        rcases hs with (rfl | rfl) | rfl <;> cases h
      · rfl
  have hresolve : resolveInteger? s = some (.int i) := by
    unfold resolveInteger?
    simp only [h, if_pos hi]
  unfold resolvePlain
  rw [if_neg (by simp [hnull])]
  simp only [hbool, hresolve]

/-- Every integer of 64 bits is what its decimal stands for. -/
theorem resolvePlain_toString (i : Int) (hi : fits64 i = true) :
    resolvePlain (toString i) = .int i :=
  resolvePlain_of_readInteger? (readInteger?_toString i) hi

theorem resolveInteger?_eq_some {s : String} {r : Resolved} (h : resolveInteger? s = some r) :
    (∃ i, fits64 i = true ∧ r = .int i) ∨ ∃ i, r = .wide i := by
  unfold resolveInteger? at h
  split at h
  · split at h
    · rename_i i _ hi
      cases h
      exact Or.inl ⟨i, hi, rfl⟩
    · split at h
      · cases h
        exact Or.inr ⟨_, rfl⟩
      · cases h
  · cases h

/-- What a plain scalar can stand for. A number has 64 bits unless it is a wide one, and a text is
the scalar's own. -/
theorem resolvePlain_cases (s : String) :
    resolvePlain s = .null ∨ (∃ b, resolvePlain s = .bool b) ∨
      (∃ i, fits64 i = true ∧ resolvePlain s = .int i) ∨ (∃ i, resolvePlain s = .wide i) ∨
      (∃ x, resolvePlain s = .float x) ∨ resolvePlain s = .text s := by
  unfold resolvePlain
  split
  · exact Or.inl rfl
  split
  · exact Or.inr (Or.inl ⟨_, rfl⟩)
  split
  · rename_i r hr
    rcases resolveInteger?_eq_some hr with ⟨i, hi, rfl⟩ | ⟨i, rfl⟩
    · exact Or.inr (Or.inr (Or.inl ⟨i, hi, rfl⟩))
    · exact Or.inr (Or.inr (Or.inr (Or.inl ⟨i, rfl⟩)))
  split
  · exact Or.inr (Or.inr (Or.inr (Or.inr (Or.inr rfl))))
  split
  · exact Or.inr (Or.inr (Or.inr (Or.inr (Or.inl ⟨_, rfl⟩))))
  · exact Or.inr (Or.inr (Or.inr (Or.inr (Or.inr rfl))))

/-- Nothing is written as an empty text or a word. -/
theorem resolvePlain_eq_null_iff (s : String) :
    resolvePlain s = .null ↔ (s.isEmpty || isNullWord s) = true := by
  constructor
  · intro h
    unfold resolvePlain at h
    split at h
    · assumption
    split at h
    · cases h
    split at h
    · rename_i r hr
      rcases resolveInteger?_eq_some hr with ⟨i, -, rfl⟩ | ⟨i, rfl⟩ <;> cases h
    split at h
    · cases h
    split at h <;> cases h
  · intro h
    unfold resolvePlain
    rw [if_pos h]

theorem resolvePlain_eq_bool_iff (s : String) (b : Bool) :
    resolvePlain s = .bool b ↔ readBool? s = some b := by
  constructor
  · intro h
    unfold resolvePlain at h
    split at h
    · cases h
    split at h
    · rename_i b' hb
      cases h
      exact hb
    split at h
    · rename_i r hr
      rcases resolveInteger?_eq_some hr with ⟨i, -, rfl⟩ | ⟨i, rfl⟩ <;> cases h
    split at h
    · cases h
    split at h <;> cases h
  · intro h
    have hnull : ¬(s.isEmpty || isNullWord s) = true := by
      intro hs
      simp only [isNullWord, Bool.or_eq_true, String.isEmpty_iff, beq_iff_eq] at hs
      rcases hs with rfl | ((rfl | rfl) | rfl) | rfl <;> cases h
    unfold resolvePlain
    rw [if_neg hnull, h]

end CommandSpec.Yaml
