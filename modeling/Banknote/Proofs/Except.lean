/-!
# Computations that may fail

When a sequence of computations succeeds, and with what.  Proofs take such a sequence apart with
these lemmas instead of unfolding it.  The `toOption` of a computation forgets which failure there
was.
-/

namespace Banknote

variable {ε α β : Type}

/-- A sequence succeeds when both parts do. -/
theorem bind_eq_ok {x : Except ε α} {f : α → Except ε β} {b : β} :
    x >>= f = .ok b ↔ ∃ a, x = .ok a ∧ f a = .ok b := by
  cases x with
  | error e =>
    constructor
    · intro h
      cases h
    · rintro ⟨a, h, _⟩
      cases h
  | ok a =>
    constructor
    · exact fun h => ⟨a, rfl, h⟩
    · rintro ⟨a', h, hf⟩
      cases h
      exact hf

/-- A sequence fails as its first part does, or as the second one after it. -/
theorem bind_eq_error {x : Except ε α} {f : α → Except ε β} {e : ε} :
    x >>= f = .error e ↔ x = .error e ∨ ∃ a, x = .ok a ∧ f a = .error e := by
  cases x with
  | error e' =>
    constructor
    · intro h
      cases h
      exact .inl rfl
    · rintro (h | ⟨a, h, _⟩)
      · cases h
        rfl
      · cases h
  | ok a =>
    constructor
    · exact fun h => .inr ⟨a, rfl, h⟩
    · rintro (h | ⟨a', h, hf⟩)
      · cases h
      · cases h
        exact hf

/-- What is changed after it succeeded was there before. -/
theorem map_eq_ok {x : Except ε α} {f : α → β} {b : β} :
    x.map f = .ok b ↔ ∃ a, x = .ok a ∧ f a = b := by
  cases x with
  | error e => simp [Except.map]
  | ok a => simp [Except.map]

/-- A computation fails when it does not succeed. -/
theorem exists_eq_error_iff {x : Except ε α} : (∃ e, x = .error e) ↔ ¬ ∃ a, x = .ok a := by
  cases x <;> simp

theorem eq_ok_of_toOption {x : Except ε α} {a : α} (h : x.toOption = some a) : x = .ok a := by
  cases x with
  | error e => cases h
  | ok b =>
    cases h
    rfl

theorem toOption_bind (x : Except ε α) (f : α → Except ε β) :
    (x >>= f).toOption = x.toOption.bind fun a => (f a).toOption := by
  cases x <;> rfl

theorem toOption_map (x : Except ε α) (f : α → β) : (x.map f).toOption = x.toOption.map f := by
  cases x <;> rfl

/-- Two sequences succeed alike when both parts do. -/
theorem toOption_bind_congr {x x' : Except ε α} {f f' : α → Except ε β}
    (hx : x.toOption = x'.toOption) (hf : ∀ a, (f a).toOption = (f' a).toOption) :
    (x >>= f).toOption = (x' >>= f').toOption := by
  rw [toOption_bind, toOption_bind, hx]
  exact congrArg _ (funext hf)

/-- Two computations can be done in either order if their results are used alike. -/
theorem toOption_map_comm {σ τ : Type} {x : Except ε α} {y : Except ε β} {f : α → σ}
    {g : σ → β → τ} {f' : σ → α → τ} {g' : β → σ} (h : ∀ a b, g (f a) b = f' (g' b) a) :
    ((x.map f).toOption.bind fun s => (y.map (g s)).toOption) =
      (y.map g').toOption.bind fun s => (x.map (f' s)).toOption := by
  cases x with
  | error e => cases y <;> rfl
  | ok a =>
    cases y with
    | error e => rfl
    | ok b => exact congrArg some (h a b)

/-- Two computations that succeed alike both fail or both succeed with the same result. -/
theorem toOption_eq_iff {x x' : Except ε α} :
    x.toOption = x'.toOption ↔
      (∃ e e', x = .error e ∧ x' = .error e') ∨ ∃ a, x = .ok a ∧ x' = .ok a := by
  cases x <;> cases x' <;> simp [Except.toOption, eq_comm]

end Banknote
