/-!
# Computations that may fail, read backwards

Reading, the check of a program and the operations without effects are computations of `Except`, put
together from steps. What is known of the whole says how its steps ended.
-/

namespace SmallLisp

variable {ε α β : Type}

/-- A computation that gives a result has come through its first step. -/
theorem exists_of_bind_eq_ok {x : Except ε α} {f : α → Except ε β} {b : β}
    (h : x >>= f = .ok b) : ∃ a, x = .ok a ∧ f a = .ok b := by
  cases x with
  | error reason => cases h
  | ok a => exact ⟨a, rfl, h⟩

/-- A computation fails in its first step or behind it. -/
theorem error_or_exists_of_bind_eq_error {x : Except ε α} {f : α → Except ε β} {reason : ε}
    (h : x >>= f = .error reason) : x = .error reason ∨ ∃ a, x = .ok a ∧ f a = .error reason := by
  cases x with
  | error reason' =>
    cases h
    exact .inl rfl
  | ok a => exact .inr ⟨a, rfl, h⟩

/-- What is made of a result is made of one that there is. -/
theorem exists_of_map_eq_ok {x : Except ε α} {f : α → β} {b : β} (h : x.map f = .ok b) :
    ∃ a, x = .ok a ∧ f a = b := by
  cases x with
  | error reason => cases h
  | ok a => exact ⟨a, rfl, Except.ok.inj h⟩

/-- What is made of a result does not fail in another way than its computation. -/
theorem eq_error_of_map_eq_error {x : Except ε α} {f : α → β} {reason : ε}
    (h : x.map f = .error reason) : x = .error reason := by
  cases x with
  | error reason' => rw [Except.error.inj h]
  | ok a => cases h

end SmallLisp
