import UnitSystems.Proofs.Decimal.Positional
import UnitSystems.Proofs.Dimension.Display

/-!
# Printed exponents

The contribution of a base unit is printed from the quotient of its exponent by the allowed root and
from nothing else, whole quotients as integers. For one root the quotients of any two exponents are
so far apart that they neither round to one number nor are written by one decimal.
-/

namespace UnitSystems

namespace Decimal

/-- Equal quotients are written alike. -/
theorem quotientText_congr (numerator other : ℤ) (denominator otherDenominator : ℕ)
    (hd : 0 < denominator) (hother : 0 < otherDenominator)
    (h : numerator * otherDenominator = other * denominator) :
    quotientText numerator denominator = quotientText other otherDenominator := by
  calc quotientText numerator denominator
      = quotientText (otherDenominator * numerator) (otherDenominator * denominator) :=
        (quotientText_mul_left otherDenominator numerator denominator hother).symm
    _ = quotientText (denominator * other) (denominator * otherDenominator) := by
        rw [mul_comm, h, mul_comm other, Nat.mul_comm]
    _ = quotientText other otherDenominator := quotientText_mul_left denominator other _ hd

/-- An integer with no more bits than the precision asks is written as it is. -/
theorem quotientText_one (n : ℤ) (hne : n ≠ 0) (hn : n.natAbs < 2 ^ 53) :
    quotientText n 1 = n.repr := by
  rw [quotientText, if_neg one_ne_zero, if_neg (Int.natAbs_ne_zero.mpr hne),
    positional_nearest_natCast _ (Int.natAbs_pos.mpr hne) hn, ← toList_repr, String.ofList_toList]

/-- Quotients by one divisor are written differently, as far as their numerators have fewer bits
than the precision asks. -/
theorem quotientText_injective (first second : ℤ) (denominator : ℕ) (hd : 0 < denominator)
    (hfirst : first ≠ 0) (hsecond : second ≠ 0) (hfirstBits : first.natAbs < 2 ^ 52)
    (hsecondBits : second.natAbs < 2 ^ 52)
    (h : quotientText first denominator = quotientText second denominator) : first = second := by
  have hpos (n : ℤ) (hn : n ≠ 0) : 0 < n.natAbs := Int.natAbs_pos.mpr hn
  obtain ⟨hnormal, -⟩ := covers_nearest first.natAbs denominator (hpos first hfirst) hd
  obtain ⟨hnormal', -⟩ := covers_nearest second.natAbs denominator (hpos second hsecond) hd
  have hcovers := (nearest first.natAbs denominator).covers_shortest hnormal
  have hcovers' := (nearest second.natAbs denominator).covers_shortest hnormal'
  have hread := valueOfText_quotientText first denominator hfirst hd
  rw [h, valueOfText_quotientText second denominator hsecond hd] at hread
  -- the decimals agree up to their signs, and so they agree
  have hunit (n : ℤ) (hn : n ≠ 0) : |(n.sign : ℚ)| = 1 := by
    rcases lt_or_gt_of_ne hn with hneg | hpos
    · rw [Int.sign_eq_neg_one_of_neg hneg]
      norm_num
    · rw [Int.sign_eq_one_of_pos hpos]
      norm_num
  have hvalue : (nearest second.natAbs denominator).shortest.value =
      (nearest first.natAbs denominator).shortest.value := by
    have habs := congrArg abs hread
    rwa [abs_mul, abs_mul, hunit first hfirst, hunit second hsecond, one_mul, one_mul,
      abs_of_pos (hcovers'.pos _ _ hnormal'), abs_of_pos (hcovers.pos _ _ hnormal)] at habs
  have hsign : second.sign = first.sign := by
    rw [hvalue] at hread
    exact_mod_cast mul_right_cancel₀ (hcovers.pos _ _ hnormal).ne' hread
  have hnearest : nearest first.natAbs denominator = nearest second.natAbs denominator :=
    hcovers.unique _ _ _ (hvalue ▸ hcovers') hnormal hnormal'
  have hsize : first.natAbs = second.natAbs :=
    le_antisymm
      (numerator_le_of_nearest_eq _ _ _ (hpos first hfirst) (hpos second hsecond) hd hsecondBits
        hnearest)
      (numerator_le_of_nearest_eq _ _ _ (hpos second hsecond) (hpos first hfirst) hd hfirstBits
        hnearest.symm)
  rw [← Int.sign_mul_natAbs first, ← Int.sign_mul_natAbs second, hsign, hsize]

end Decimal

/-- An exponent of 32 bits has fewer bits than a mantissa. -/
theorem natAbs_toInt_lt (exponent : Int32) : exponent.toInt.natAbs < 2 ^ 52 := by
  have hlow := exponent.le_toInt
  have hhigh := exponent.toInt_lt
  omega

/-- Of two equal quotients, if one is zero or one then the other is the same. -/
theorem of_cross_eq (numerator other : ℤ) (denominator otherDenominator : ℕ) (hd : 0 < denominator)
    (h : numerator * otherDenominator = other * denominator) :
    (numerator = 0 → other = 0) ∧ (numerator = denominator → other = otherDenominator) := by
  have hne : (denominator : ℤ) ≠ 0 := by omega
  constructor
  · rintro rfl
    rw [zero_mul] at h
    exact (Int.mul_eq_zero.mp h.symm).resolve_right hne
  · rintro rfl
    rw [mul_comm] at h
    exact (Int.eq_of_mul_eq_mul_right hne h).symm

/-- The contribution of a base unit depends on nothing but the quotient of its exponent by the root,
and a whole quotient other than zero and one is printed as an integer. -/
theorem formatExponent_ratio (symbol : String) :
    (∀ (exponent other : Int32) (root otherRoot : UInt32), 1 ≤ root.toNat → 1 ≤ otherRoot.toNat →
      (exponent.toInt / root.toNat : ℚ) = other.toInt / otherRoot.toNat →
        formatExponent symbol exponent root = formatExponent symbol other otherRoot) ∧
    ∀ (exponent : Int32) (root : UInt32) (whole : ℤ), 1 ≤ root.toNat →
      exponent.toInt = whole * root.toNat → whole ≠ 0 → whole ≠ 1 →
        formatExponent symbol exponent root = symbol ++ "^" ++ whole.repr := by
  constructor
  · intro exponent other root otherRoot hroot hother hratio
    have hcross : exponent.toInt * otherRoot.toNat = other.toInt * root.toNat := by
      have hne : (root.toNat : ℚ) ≠ 0 := by exact_mod_cast Nat.ne_of_gt hroot
      have hne' : (otherRoot.toNat : ℚ) ≠ 0 := by exact_mod_cast Nat.ne_of_gt hother
      exact_mod_cast (div_eq_div_iff hne hne').mp hratio
    obtain ⟨hzero, hwhole⟩ := of_cross_eq _ _ _ _ hroot hcross
    obtain ⟨hzero', hwhole'⟩ := of_cross_eq _ _ _ _ hother hcross.symm
    simp only [formatExponent, Iff.intro hzero hzero', Iff.intro hwhole hwhole',
      Decimal.quotientText_congr _ _ _ _ hroot hother hcross]
  · intro exponent root whole hroot hexponent hzero hone
    have hne : (root.toNat : ℤ) ≠ 0 := by omega
    have hsize : whole.natAbs < 2 ^ 53 := by
      have hle : whole.natAbs ≤ exponent.toInt.natAbs := by
        rw [hexponent, Int.natAbs_mul]
        exact Nat.le_mul_of_pos_right _ hroot
      have hbits := natAbs_toInt_lt exponent
      omega
    have hquotient : Decimal.quotientText exponent.toInt root.toNat = whole.repr := by
      rw [Decimal.quotientText_congr exponent.toInt whole root.toNat 1 hroot one_pos
        (by rw [hexponent, Nat.cast_one, mul_one])]
      exact Decimal.quotientText_one whole hzero hsize
    have hnonzero : exponent.toInt ≠ 0 := by
      rw [hexponent]
      exact mul_ne_zero hzero hne
    have hother : exponent.toInt ≠ root.toNat := by
      rw [hexponent]
      exact fun heq => hone ((mul_eq_right₀ hne).mp heq)
    rw [formatExponent, if_neg hnonzero, if_neg hother, hquotient]

/-- Exponents with the quotient minus three halves, and a whole quotient of the smallest exponent. -/
theorem formatExponent_ratio_extremes :
    formatExponent "m" (-3) 2 = formatExponent "m" (-2147483646) 1431655764 ∧
      formatExponent "m" (-2147483648) 2 = "m^-1073741824" := by
  obtain ⟨hratio, hwhole⟩ := formatExponent_ratio "m"
  have hfirst : (-3 : Int32).toInt = -3 := by decide
  have hsecond : (-2147483646 : Int32).toInt = -2147483646 := by decide
  have htwo : (2 : UInt32).toNat = 2 := by decide
  have hroot : (1431655764 : UInt32).toNat = 1431655764 := by decide
  constructor
  · refine hratio (-3) (-2147483646) 2 1431655764 (by decide) (by decide) ?_
    rw [hfirst, hsecond, htwo, hroot]
    norm_num
  · exact hwhole (-2147483648) 2 (-1073741824) (by decide) (by decide) (by decide) (by decide)

/-- A symbol with a power behind it is longer than the symbol. -/
theorem length_powered (symbol power : String) :
    symbol.length < (symbol ++ "^" ++ power).length := by
  have hmark : "^".length = 1 := rfl
  rw [String.length_append, String.length_append, hmark]
  omega

section

variable (symbol : String) (hsymbol : symbol ≠ "") (exponent : Int32) (root : UInt32)

include hsymbol

/-- Only a zero exponent is printed as nothing. -/
theorem formatExponent_eq_empty_iff :
    formatExponent symbol exponent root = "" ↔ exponent.toInt = 0 := by
  unfold formatExponent
  split
  · next hzero => exact iff_of_true rfl hzero
  · next hzero =>
    refine iff_of_false ?_ hzero
    split
    · exact hsymbol
    · intro h
      have hlong := length_powered symbol (Decimal.quotientText exponent.toInt root.toNat)
      rw [h] at hlong
      exact absurd hlong (Nat.not_lt_zero _)

/-- Only one whole unit is printed as the bare symbol. -/
theorem formatExponent_eq_symbol_iff (hroot : 1 ≤ root.toNat) :
    formatExponent symbol exponent root = symbol ↔ exponent.toInt = root.toNat := by
  unfold formatExponent
  split
  · next hzero => exact iff_of_false hsymbol.symm (by omega)
  · split
    · next hwhole => exact iff_of_true rfl hwhole
    · next hwhole =>
      refine iff_of_false (fun h => ?_) hwhole
      have hlong := length_powered symbol (Decimal.quotientText exponent.toInt root.toNat)
      rw [h] at hlong
      exact absurd hlong (Nat.lt_irrefl _)

end

/-- Different exponents of a base unit with a symbol are printed differently. -/
theorem formatExponent_injective (symbol : String) (hsymbol : symbol ≠ "") (root : UInt32)
    (hroot : 1 ≤ root.toNat) (first second : Int32) (hne : first ≠ second) :
    formatExponent symbol first root ≠ formatExponent symbol second root := by
  intro h
  refine hne (Int32.toInt_inj.mp ?_)
  have hempty := formatExponent_eq_empty_iff symbol hsymbol first root
  have hbare := formatExponent_eq_symbol_iff symbol hsymbol first root hroot
  rw [h, formatExponent_eq_empty_iff symbol hsymbol second root] at hempty
  rw [h, formatExponent_eq_symbol_iff symbol hsymbol second root hroot] at hbare
  by_cases hzero : first.toInt = 0
  · rw [hzero, hempty.mpr hzero]
  by_cases hwhole : first.toInt = root.toNat
  · rw [hwhole, hbare.mpr hwhole]
  have hzero' := mt hempty.mp hzero
  have hwhole' := mt hbare.mp hwhole
  rw [formatExponent, formatExponent, if_neg hzero, if_neg hwhole, if_neg hzero', if_neg hwhole',
    String.append_right_inj] at h
  exact Decimal.quotientText_injective _ _ _ hroot hzero hzero' (natAbs_toInt_lt first)
    (natAbs_toInt_lt second) h

/-- The two smallest exponents of the largest root are printed differently. -/
theorem formatExponent_injective_smallest :
    formatExponent "m" (-2147483648) 4294967295 ≠ formatExponent "m" (-2147483647) 4294967295 :=
  formatExponent_injective "m" (by decide) 4294967295 (by decide) (-2147483648) (-2147483647)
    (by decide)

end UnitSystems
