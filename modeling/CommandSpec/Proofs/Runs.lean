import CommandSpec.Spec.Commands

/-! Runs that may fail: what follows a success, what a failure comes from, and when two runs
agree. The inversion of a success, `bind_eq_ok`, stands beside the command tree. -/
namespace CommandSpec

@[simp] theorem ok_bind (a : α) (f : α → Except ε β) : (Except.ok a >>= f) = f a := rfl

@[simp] theorem error_bind (e : ε) (f : α → Except ε β) :
    (Except.error e >>= f) = .error e := rfl

@[simp] theorem map_ok (a : α) (f : α → β) : f <$> (Except.ok a : Except ε α) = .ok (f a) := rfl

@[simp] theorem map_error (e : ε) (f : α → β) :
    f <$> (Except.error e : Except ε α) = .error e := rfl

/-- Results compare as options, on which equality is decidable. -/
theorem eq_ok_of_toOption {x : Except ε α} {a : α} (h : x.toOption = some a) : x = .ok a := by
  cases x with
  | error e => cases h
  | ok b => exact congrArg Except.ok (Option.some.inj h)

theorem isSome_toOption_iff {x : Except ε α} : x.toOption.isSome = true ↔ ∃ a, x = .ok a := by
  cases x <;> simp [Except.toOption]

def failure? : Except ε α → Option ε
  | .error e => some e
  | .ok _ => none

theorem eq_error_of_failure? {x : Except ε α} {e : ε} (h : failure? x = some e) :
    x = .error e := by
  cases x with
  | error e' => exact congrArg Except.error (Option.some.inj h)
  | ok a => cases h

theorem map_eq_ok {x : Except ε α} {f : α → β} {b : β} (h : f <$> x = .ok b) :
    ∃ a, x = .ok a ∧ f a = b := by
  cases x with
  | error e => cases h
  | ok a => exact ⟨a, rfl, Except.ok.inj h⟩

theorem map_eq_error {x : Except ε α} {f : α → β} {e : ε} (h : f <$> x = .error e) :
    x = .error e := by
  cases x with
  | error e' => exact congrArg Except.error (Except.error.inj h)
  | ok a => cases h

/-- A failure comes from the first step, or from what follows its success. -/
theorem bind_eq_error {x : Except ε α} {f : α → Except ε β} {e : ε}
    (h : (x >>= f) = .error e) : x = .error e ∨ ∃ a, x = .ok a ∧ f a = .error e := by
  cases x with
  | error e' =>
    cases h
    exact Or.inl rfl
  | ok a => exact Or.inr ⟨a, rfl, h⟩

/-- A fold goes on with what its first step gives. -/
theorem foldlM_cons_ok {f : β → α → Except ε β} {a : α} {b b' : β} (as : List α)
    (h : f b a = .ok b') : (a :: as).foldlM f b = as.foldlM f b' := by
  rw [List.foldlM_cons, h, ok_bind]

/-- Runs that go on alike after every success agree. -/
theorem bind_congr_ok (x : Except ε α) (f g : α → Except ε β)
    (h : ∀ a, x = .ok a → f a = g a) : (x >>= f) = (x >>= g) := by
  cases x with
  | error e => rfl
  | ok a => exact h a rfl

/-- Runs that go on alike after equal results have equal results. -/
theorem toOption_bind_congr {x y : Except ε α} {f g : α → Except ε β}
    (h : x.toOption = y.toOption) (hf : ∀ a, (f a).toOption = (g a).toOption) :
    (x >>= f).toOption = (y >>= g).toOption := by
  cases x with
  | error e =>
    cases y with
    | error e' => rfl
    | ok b => cases h
  | ok a =>
    cases y with
    | error e => cases h
    | ok b =>
      cases h
      exact hf a

theorem toOption_bind_of_none {x : Except ε α} (h : x.toOption = none)
    (f : α → Except ε β) : (x >>= f).toOption = none := by
  cases x with
  | error e => rfl
  | ok a => cases h

theorem eq_ok_iff_of_toOption {x y : Except ε α} (h : x.toOption = y.toOption) (a : α) :
    x = .ok a ↔ y = .ok a :=
  ⟨fun hx => eq_ok_of_toOption (h ▸ congrArg Except.toOption hx),
    fun hy => eq_ok_of_toOption (h ▸ congrArg Except.toOption hy)⟩

end CommandSpec
