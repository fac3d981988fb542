import UnitSystems.Display
import UnitSystems.Proofs.Dimension.Exact

/-!
# What a displayed dimension depends on

The text of a dimension depends on the quotients of its exponents by the allowed root. Exponents
and root can be multiplied by one positive number without any change: a zero stays a zero, a whole
unit stays a whole unit, and a quotient is brought to lowest terms before it is rounded.
-/

namespace UnitSystems

namespace Decimal

/-- A quotient is rounded to the same number in all its terms. -/
theorem nearest_mul_left (k numerator denominator : Nat) (hk : 0 < k) :
    nearest (k * numerator) (k * denominator) = nearest numerator denominator := by
  have hgcd : (k * numerator).gcd (k * denominator) = k * numerator.gcd denominator :=
    Nat.gcd_mul_left k numerator denominator
  rw [nearest, hgcd, Nat.mul_div_mul_left _ _ hk, Nat.mul_div_mul_left _ _ hk]
  rfl

/-- A quotient is written the same in all its terms. -/
theorem quotientText_mul_left (k : Nat) (numerator : Int) (denominator : Nat) (hk : 0 < k) :
    quotientText (k * numerator) (k * denominator) = quotientText numerator denominator := by
  have hsign : (k : Int) * numerator < 0 ↔ numerator < 0 := by
    constructor
    · intro h
      by_contra hle
      have hproduct : 0 ≤ (k : Int) * numerator := Int.mul_nonneg (by omega) (by omega)
      omega
    · intro h
      exact Int.mul_neg_of_pos_of_neg (by omega) h
  have hsize : ((k : Int) * numerator).natAbs = k * numerator.natAbs := by
    rw [Int.natAbs_mul, Int.natAbs_natCast]
  have hne : k ≠ 0 := Nat.ne_of_gt hk
  simp only [quotientText, hsign, hsize, Nat.mul_eq_zero, hne, false_or,
    nearest_mul_left k _ _ hk]

end Decimal

/-- The contribution of a base unit depends on the quotient of its exponent by the root. -/
theorem formatExponent_mul_left (k : Nat) (hk : 0 < k) (symbol : String) (exponent finer : Int32)
    (root finerRoot : UInt32) (hexponent : finer.toInt = k * exponent.toInt)
    (hroot : finerRoot.toNat = k * root.toNat) :
    formatExponent symbol finer finerRoot = formatExponent symbol exponent root := by
  have hne : (k : Int) ≠ 0 := by omega
  have hzero : finer.toInt = 0 ↔ exponent.toInt = 0 := by
    rw [hexponent, Int.mul_eq_zero, or_iff_right hne]
  have hwhole : finer.toInt = finerRoot.toNat ↔ exponent.toInt = root.toNat := by
    rw [hexponent, hroot, Int.natCast_mul]
    exact Int.mul_eq_mul_left_iff hne
  have hquotient : Decimal.quotientText finer.toInt finerRoot.toNat =
      Decimal.quotientText exponent.toInt root.toNat := by
    rw [hexponent, hroot]
    exact Decimal.quotientText_mul_left k exponent.toInt root.toNat hk
  simp only [formatExponent, hzero, hwhole, hquotient]

/-- The contributions of base units depend on the quotients of their exponents by the root. -/
theorem formatExponents_mul_left (k : Nat) (hk : 0 < k) (root finerRoot : UInt32)
    (hroot : finerRoot.toNat = k * root.toNat) (units : List BaseUnit)
    (exponents finer : List Int32)
    (h : finer.map Int32.toInt = (exponents.map Int32.toInt).map fun n => (k : Int) * n) :
    formatExponents finerRoot units finer = formatExponents root units exponents := by
  induction exponents generalizing units finer with
  | nil =>
    obtain rfl := List.map_eq_nil_iff.mp h
    cases units <;> rfl
  | cons exponent exponents ih =>
    cases finer with
    | nil => contradiction
    | cons first rest =>
      simp only [List.map_cons, List.cons.injEq] at h
      cases units with
      | nil => rfl
      | cons unit units =>
        rw [formatExponents, formatExponents, ih units rest h.2,
          formatExponent_mul_left k hk unit.symbol exponent first root finerRoot h.1 hroot]

/-- A dimension of a system is shown exactly when it has as many exponents as base units. -/
theorem Specification.format_eq_ok_iff (s : Specification) (d : Dimension) (shown : String) :
    s.format d = .ok shown ↔
      d.arity = s.arity ∧ shown = formatExponents s.allowedRoot s.baseUnits d.exponents := by
  unfold format
  split
  · next harity => simp [harity, eq_comm]
  · next harity => simp [harity]

end UnitSystems
