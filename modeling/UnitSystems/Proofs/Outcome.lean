/-!
# Outcomes

An outcome is a value or an error. What a sequence of steps comes to is told by its steps: an error
of the whole is the error of one of them, and a value comes from values.
-/

namespace UnitSystems

variable {ε α β : Type}

/-- An outcome with a value is this value. -/
theorem eq_ok_of_toOption (outcome : Except ε α) (a : α)
    (h : outcome.toOption = some a) : outcome = .ok a := by
  cases outcome with
  | error _ => contradiction
  | ok b => exact congrArg Except.ok (Option.some.inj h)

/-- A translated value comes from a value. -/
theorem map_eq_ok_iff (outcome : Except ε α) (f : α → β) (b : β) :
    outcome.map f = .ok b ↔ ∃ a, outcome = .ok a ∧ b = f a := by
  cases outcome <;> simp [Except.map, eq_comm]

/-- Translating a value changes no error. -/
theorem map_eq_error_iff (outcome : Except ε α) (f : α → β) (e : ε) :
    outcome.map f = .error e ↔ outcome = .error e := by
  cases outcome <;> simp [Except.map]

/-- A sequence fails in its first or in its second step. -/
theorem bind_eq_error_iff (outcome : Except ε α) (next : α → Except ε β) (e : ε) :
    outcome.bind next = .error e ↔
      outcome = .error e ∨ ∃ a, outcome = .ok a ∧ next a = .error e := by
  cases outcome <;> simp [Except.bind]

end UnitSystems
