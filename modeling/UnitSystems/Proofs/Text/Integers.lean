import UnitSystems.Grammar.Parts

/-!
# Written integers

The decimal digits of an integer, with a minus sign in front of a negative one, are digits of the
grammar and denote that integer.
-/

namespace UnitSystems

open Grammar

/-- The written form of an integer is a sign or nothing, and then the digits of its size. -/
theorem toList_repr (n : Int) :
    n.repr.toList = (if n < 0 then ['-'] else []) ++ Nat.toDigits 10 n.natAbs := by
  cases n with
  | ofNat m => simp [Int.repr, Nat.toList_repr]
  | negSucc m => simp [Int.repr, Nat.toList_repr, Int.negSucc_lt_zero]

/-- The decimal digits of a natural number are digits of the grammar. -/
theorem isDigit_of_mem_toDigits (n : Nat) (c : Char) (hc : c ∈ Nat.toDigits 10 n) :
    Grammar.isDigit c = true :=
  Nat.isDigit_of_mem_toDigits (by decide) (by decide) hc

/-- The decimal digits of a positive number begin with no zero. -/
theorem exists_toDigits_eq_cons (n : Nat) (h : 0 < n) :
    ∃ first digits, Nat.toDigits 10 n = first :: digits ∧ isNonzeroDigit first = true := by
  induction n using Nat.strongRecOn with
  | ind n ih =>
    by_cases hsmall : n < 10
    · have hdigit : ∀ n < 10, 0 < n → isNonzeroDigit n.digitChar = true := by decide
      exact ⟨_, [], Nat.toDigits_of_lt_base hsmall, hdigit n hsmall h⟩
    · obtain ⟨first, digits, heq, hfirst⟩ := ih (n / 10) (by omega) (by omega)
      refine ⟨first, digits ++ [(n % 10).digitChar], ?_, hfirst⟩
      rw [Nat.toDigits_of_base_le (by decide) (by omega), heq, List.cons_append]

/-- The written form of an integer denotes it. -/
theorem integerValue_repr (n : Int) : Text.integerValue n.repr.toList = n := by
  rw [toList_repr]
  split
  · next hneg =>
    rw [List.singleton_append, Text.integerValue, Nat.ofDigitChars_ten_toDigits]
    omega
  · next hpos =>
    have hhead : ∀ digits, [] ++ Nat.toDigits 10 n.natAbs ≠ '-' :: digits := by
      intro digits heq
      have hmem : '-' ∈ Nat.toDigits 10 n.natAbs := by
        rw [List.nil_append] at heq
        rw [heq]
        exact List.mem_cons_self
      exact absurd (isDigit_of_mem_toDigits _ _ hmem) (by decide)
    rw [Text.integerValue]
    · rw [List.nil_append, Nat.ofDigitChars_ten_toDigits]
      omega
    · exact hhead

end UnitSystems
