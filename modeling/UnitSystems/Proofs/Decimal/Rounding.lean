import Mathlib.Algebra.Order.Field.Power
import Mathlib.Data.Nat.Cast.Field
import Mathlib.Data.Rat.Cast.Order
import Mathlib.Tactic.FieldSimp
import Mathlib.Tactic.Linarith
import Mathlib.Tactic.Positivity
import Mathlib.Tactic.Ring
import UnitSystems.Decimal.Binary

/-!
# Rounded quotients

The rationals that round to a binary number of full precision form an interval around its value,
which includes its ends when the mantissa is even. The intervals of two numbers share no rational,
and the rounded quotient is the number whose interval holds the quotient.
-/

namespace UnitSystems.Decimal

/-- The natural that a rational is rounded to: none is nearer, and a half goes to the even one. -/
structure IsRounded (x : ℚ) (n : ℕ) : Prop where
  low : n - 1 / 2 ≤ x
  high : x ≤ n + 1 / 2
  even : x = n - 1 / 2 ∨ x = n + 1 / 2 → n % 2 = 0

/-- The rounded quotient is at most half a unit away, and exactly half a unit only if it is even. -/
theorem roundHalfEven_bounds (numerator denominator : ℕ) (hpos : 0 < denominator) :
    2 * (roundHalfEven numerator denominator * denominator) ≤ 2 * numerator + denominator ∧
      2 * numerator ≤ 2 * (roundHalfEven numerator denominator * denominator) + denominator ∧
      (2 * (roundHalfEven numerator denominator * denominator) = 2 * numerator + denominator ∨
        2 * numerator = 2 * (roundHalfEven numerator denominator * denominator) + denominator →
          roundHalfEven numerator denominator % 2 = 0) := by
  have hdiv := Nat.div_add_mod' numerator denominator
  have hmod := Nat.mod_lt numerator hpos
  simp only [roundHalfEven]
  generalize numerator / denominator = floor at hdiv ⊢
  generalize numerator % denominator = rest at hdiv hmod ⊢
  split
  · omega
  · split
    · rw [Nat.add_mul]
      omega
    · split
      · omega
      · rw [Nat.add_mul]
        omega

/-- A quotient is rounded to the nearest natural. -/
theorem isRounded_roundHalfEven (numerator denominator : ℕ) (hpos : 0 < denominator) :
    IsRounded (numerator / denominator) (roundHalfEven numerator denominator) := by
  obtain ⟨hlow, hhigh, heven⟩ := roundHalfEven_bounds numerator denominator hpos
  generalize roundHalfEven numerator denominator = n at hlow hhigh heven ⊢
  have hd : (0 : ℚ) < denominator := by exact_mod_cast hpos
  refine ⟨?_, ?_, fun hends => heven (hends.imp ?_ ?_)⟩
  · rw [le_div_iff₀ hd]
    have hlow : (2 * (n * denominator) : ℚ) ≤ 2 * numerator + denominator := by exact_mod_cast hlow
    linarith
  · rw [div_le_iff₀ hd]
    have hhigh : (2 * numerator : ℚ) ≤ 2 * (n * denominator) + denominator := by
      exact_mod_cast hhigh
    linarith
  · intro hend
    rw [div_eq_iff hd.ne'] at hend
    have hend : (2 * (n * denominator) : ℚ) = 2 * numerator + denominator := by linarith
    exact_mod_cast hend
  · intro hend
    rw [div_eq_iff hd.ne'] at hend
    have hend : (2 * numerator : ℚ) = 2 * (n * denominator) + denominator := by linarith
    exact_mod_cast hend

/-- A power of two is positive. -/
theorem two_zpow_pos (exponent : ℤ) : (0 : ℚ) < 2 ^ exponent :=
  zpow_pos two_pos exponent

/-- The least mantissa as a power of two. -/
theorem leastMantissa_eq : leastMantissa = 2 ^ 52 := rfl

namespace Binary

/-- The number itself. -/
def value (b : Binary) : ℚ :=
  b.mantissa * 2 ^ b.exponent

/-- Numbers with exactly as many bits as the precision asks. -/
structure IsNormal (b : Binary) : Prop where
  least : leastMantissa ≤ b.mantissa
  most : b.mantissa < 2 * leastMantissa

/-- How far the interval of a number reaches below it, in units of its last bit. -/
def below (b : Binary) : ℚ :=
  if b.mantissa = leastMantissa then 1 / 4 else 1 / 2

/-- The rationals that round to a number. -/
structure Covers (b : Binary) (x : ℚ) : Prop where
  low : (b.mantissa - b.below) * 2 ^ b.exponent ≤ x
  high : x ≤ (b.mantissa + 1 / 2) * 2 ^ b.exponent
  even : x = (b.mantissa - b.below) * 2 ^ b.exponent ∨
    x = (b.mantissa + 1 / 2) * 2 ^ b.exponent → b.mantissa % 2 = 0

/-- The interval of a number reaches a quarter or a half of a unit below it. -/
theorem below_bounds (b : Binary) : 1 / 4 ≤ b.below ∧ b.below ≤ 1 / 2 := by
  unfold below
  split <;> constructor <;> norm_num

/-- A number rounds to itself. -/
theorem covers_value (b : Binary) : b.Covers b.value := by
  have hunit := two_zpow_pos b.exponent
  have hbelow := b.below_bounds.1
  have hlow : (b.mantissa - b.below) * 2 ^ b.exponent < b.value := by
    rw [value, mul_lt_mul_iff_left₀ hunit]
    linarith
  have hhigh : b.value < (b.mantissa + 1 / 2) * 2 ^ b.exponent := by
    rw [value, mul_lt_mul_iff_left₀ hunit]
    linarith
  exact ⟨hlow.le, hhigh.le, fun hends => hends.elim (fun h => absurd h hlow.ne')
    fun h => absurd h hhigh.ne⟩

/-- The interval of a number of full precision begins a quarter of a unit below the least mantissa
at the earliest. -/
theorem IsNormal.low_bound (b : Binary) (h : b.IsNormal) :
    (2 ^ 52 - 1 / 4 : ℚ) ≤ b.mantissa - b.below := by
  have hle : 2 ^ 52 ≤ b.mantissa := leastMantissa_eq ▸ h.least
  unfold below
  split
  · next hleast =>
    rw [hleast, leastMantissa_eq]
    norm_num
  · next hmore =>
    rw [leastMantissa_eq] at hmore
    have hnext : ((2 ^ 52 + 1 : ℕ) : ℚ) ≤ b.mantissa := by exact_mod_cast (by omega)
    push_cast at hnext
    linarith

/-- What rounds to a number of full precision is positive. -/
theorem Covers.pos (b : Binary) (x : ℚ) (h : b.Covers x) (hnormal : b.IsNormal) : 0 < x :=
  (mul_pos (lt_of_lt_of_le (by norm_num) hnormal.low_bound) (two_zpow_pos b.exponent)).trans_le
    h.low

/-- Of two numbers with one exponent, the smaller one does not meet the larger one. -/
theorem not_covers_of_mantissa_lt (b other : Binary) (x : ℚ)
    (hexponent : b.exponent = other.exponent) (hlt : b.mantissa < other.mantissa)
    (hb : b.Covers x) : ¬other.Covers x := by
  intro hother
  have hunit := two_zpow_pos b.exponent
  have hlow := hother.low
  have hbelow := other.below_bounds.2
  have hnext : (b.mantissa + 1 : ℚ) ≤ other.mantissa := by exact_mod_cast hlt
  rw [← hexponent] at hlow
  have hends : (other.mantissa - other.below : ℚ) ≤ b.mantissa + 1 / 2 :=
    le_of_mul_le_mul_right (hlow.trans hb.high) hunit
  -- the intervals touch at most, and then one mantissa is odd
  have hmantissa : (other.mantissa : ℚ) = b.mantissa + 1 := by linarith
  have hhigh : x = (b.mantissa + 1 / 2) * 2 ^ b.exponent := by
    refine le_antisymm hb.high ?_
    have hbelow' : other.below = 1 / 2 := by linarith
    rw [hmantissa, hbelow'] at hlow
    linarith
  have hodd : other.mantissa = b.mantissa + 1 := by exact_mod_cast hmantissa
  have heven := hb.even (.inr hhigh)
  have hother := hother.even (.inl ?_)
  · omega
  · rw [hhigh, ← hexponent]
    congr 1
    linarith

/-- Of two numbers of full precision, one with the smaller exponent does not meet the other. -/
theorem not_covers_of_exponent_lt (b other : Binary) (x : ℚ) (hnormal : b.IsNormal)
    (hother : other.IsNormal) (hlt : b.exponent < other.exponent) (hb : b.Covers x) :
    ¬other.Covers x := by
  intro hcovers
  have hunit := two_zpow_pos b.exponent
  have hdouble : (2 : ℚ) * 2 ^ b.exponent ≤ 2 ^ other.exponent := by
    rw [← zpow_one_add₀ two_ne_zero]
    exact zpow_le_zpow_right₀ one_le_two (by omega)
  have hle : (b.mantissa + 1 : ℚ) ≤ 2 ^ 53 := by
    have hlt : b.mantissa + 1 ≤ 2 ^ 53 := hnormal.most
    exact_mod_cast hlt
  have hlow : (2 ^ 52 - 1 / 4 : ℚ) * (2 * 2 ^ b.exponent) ≤ x :=
    (mul_le_mul hother.low_bound hdouble (by positivity)
      (le_trans (by norm_num) hother.low_bound)).trans hcovers.low
  have hends : (2 ^ 53 - 1 / 2 : ℚ) ≤ b.mantissa + 1 / 2 := by
    refine le_of_mul_le_mul_right (le_trans ?_ (hlow.trans hb.high)) hunit
    linarith
  -- the intervals touch at most, and the largest mantissa is odd
  have hmantissa : (b.mantissa : ℚ) = 2 ^ 53 - 1 := by linarith
  have hhigh : x = (b.mantissa + 1 / 2) * 2 ^ b.exponent := by
    refine le_antisymm hb.high (le_trans ?_ hlow)
    rw [hmantissa]
    linarith
  have hlargest : b.mantissa + 1 = 2 ^ 53 := by
    have hsum : (b.mantissa + 1 : ℚ) = 2 ^ 53 := by linarith
    exact_mod_cast hsum
  have heven := hb.even (.inr hhigh)
  omega

/-- No rational rounds to two numbers of full precision. -/
theorem Covers.unique (b other : Binary) (x : ℚ) (hb : b.Covers x) (hother : other.Covers x)
    (hnormal : b.IsNormal) (hnormal' : other.IsNormal) : b = other := by
  have hexponent : b.exponent = other.exponent := by
    rcases lt_trichotomy b.exponent other.exponent with hlt | heq | hlt
    · exact absurd hother (not_covers_of_exponent_lt b other x hnormal hnormal' hlt hb)
    · exact heq
    · exact absurd hb (not_covers_of_exponent_lt other b x hnormal' hnormal hlt hother)
  have hmantissa : b.mantissa = other.mantissa := by
    rcases lt_trichotomy b.mantissa other.mantissa with hlt | heq | hlt
    · exact absurd hother (not_covers_of_mantissa_lt b other x hexponent hlt hb)
    · exact heq
    · exact absurd hb (not_covers_of_mantissa_lt other b x hexponent.symm hlt hother)
  cases b
  cases other
  exact congrArg₂ Binary.mk hmantissa hexponent

end Binary

/-- A power with an integer exponent as a quotient of powers with natural ones. -/
theorem zpow_eq_div (base : ℚ) (h : base ≠ 0) (exponent : ℤ) :
    base ^ exponent = base ^ exponent.toNat / base ^ (-exponent).toNat := by
  conv_lhs => rw [← Int.toNat_sub_toNat_neg exponent]
  rw [zpow_sub₀ h, zpow_natCast, zpow_natCast]

/-- A quotient in units of a power of two. -/
theorem inUnits_ratio (numerator denominator : ℕ) (exponent : ℤ) :
    ((inUnits numerator denominator exponent).1 : ℚ) / (inUnits numerator denominator exponent).2 =
      numerator / denominator / 2 ^ exponent := by
  simp only [inUnits, Nat.shiftLeft_eq, Nat.cast_mul, Nat.cast_pow, Nat.cast_ofNat,
    zpow_eq_div 2 two_ne_zero exponent]
  field_simp

/-- A quotient in units of a power of two keeps a positive denominator. -/
theorem inUnits_pos (numerator denominator : ℕ) (exponent : ℤ) (h : 0 < denominator) :
    0 < (inUnits numerator denominator exponent).2 := by
  simp only [inUnits, Nat.shiftLeft_eq]
  exact Nat.mul_pos h (Nat.two_pow_pos _)

/-- A positive natural as a multiple of the power of two of its length. -/
theorem log2_bounds (n : ℕ) (h : 0 < n) :
    (2 : ℚ) ^ (n.log2 : ℤ) ≤ n ∧ (n : ℚ) < 2 ^ (n.log2 + 1 : ℤ) := by
  constructor
  · rw [zpow_natCast]
    exact_mod_cast Nat.log2_self_le h.ne'
  · rw [← Nat.cast_succ, zpow_natCast]
    exact_mod_cast Nat.lt_log2_self

/-- The lengths of its terms give the leading exponent of a quotient up to one. -/
theorem guess_bounds (numerator denominator : ℕ) (hn : 0 < numerator) (hd : 0 < denominator) :
    (2 ^ 51 : ℚ) < numerator / denominator / 2 ^ ((numerator.log2 : ℤ) - denominator.log2 - 52) ∧
      (numerator / denominator / 2 ^ ((numerator.log2 : ℤ) - denominator.log2 - 52) : ℚ) <
        2 ^ 53 := by
  obtain ⟨hnlow, hnhigh⟩ := log2_bounds numerator hn
  obtain ⟨hdlow, hdhigh⟩ := log2_bounds denominator hd
  have hnunit := two_zpow_pos numerator.log2
  have hdunit := two_zpow_pos denominator.log2
  have hdpos : (0 : ℚ) < denominator := by exact_mod_cast hd
  rw [zpow_add_one₀ two_ne_zero] at hnhigh hdhigh
  rw [zpow_sub₀ two_ne_zero, zpow_sub₀ two_ne_zero]
  generalize (2 : ℚ) ^ (numerator.log2 : ℤ) = first at hnlow hnhigh hnunit ⊢
  generalize (2 : ℚ) ^ (denominator.log2 : ℤ) = second at hdlow hdhigh hdunit ⊢
  have hratio : (numerator / denominator / (first / second / 2 ^ (52 : ℤ)) : ℚ) =
      2 ^ 52 * (numerator * second) / (denominator * first) := by
    norm_num
    field_simp
  have hproduct : 0 < denominator * first := mul_pos hdpos hnunit
  rw [hratio, lt_div_iff₀ hproduct, div_lt_iff₀ hproduct]
  constructor
  · nlinarith
  · nlinarith

/-- In units of its leading exponent a quotient has as many bits as the precision asks. -/
theorem leadingExponent_bounds (numerator denominator : ℕ) (hn : 0 < numerator)
    (hd : 0 < denominator) :
    (2 ^ 52 : ℚ) ≤ numerator / denominator / 2 ^ leadingExponent numerator denominator ∧
      (numerator / denominator / 2 ^ leadingExponent numerator denominator : ℚ) < 2 ^ 53 := by
  obtain ⟨hlow, hhigh⟩ := guess_bounds numerator denominator hn hd
  have hprecision : ((precision - 1 : ℕ) : ℤ) = 52 := rfl
  simp only [leadingExponent, hprecision, leastMantissa_eq]
  generalize (numerator.log2 : ℤ) - denominator.log2 - 52 = guess at hlow hhigh ⊢
  have hpos : (0 : ℚ) < (inUnits numerator denominator guess).2 := by
    exact_mod_cast inUnits_pos numerator denominator guess hd
  have hless : (inUnits numerator denominator guess).1 <
      2 ^ 52 * (inUnits numerator denominator guess).2 ↔
        (numerator / denominator / 2 ^ guess : ℚ) < 2 ^ 52 := by
    rw [← inUnits_ratio, div_lt_iff₀ hpos]
    exact_mod_cast Iff.rfl
  split
  · next h =>
    have hlt := hless.mp h
    have hhalf : (numerator / denominator / 2 ^ (guess - 1) : ℚ) =
        2 * (numerator / denominator / 2 ^ guess) := by
      rw [zpow_sub_one₀ two_ne_zero]
      field_simp
    rw [hhalf]
    constructor <;> linarith
  · next h => exact ⟨not_lt.mp (mt hless.mpr h), hhigh⟩

/-- A number whose mantissa is rounded to covers what was rounded. -/
theorem Binary.covers_of_isRounded (mantissa : ℕ) (exponent : ℤ) (x : ℚ)
    (hrounded : IsRounded (x / 2 ^ exponent) mantissa) (hlow : 2 ^ 52 ≤ x / 2 ^ exponent) :
    Covers ⟨mantissa, exponent⟩ x := by
  have hunit := two_zpow_pos exponent
  have hbelow : (mantissa - below ⟨mantissa, exponent⟩ : ℚ) ≤ x / 2 ^ exponent ∧
      (x / 2 ^ exponent = mantissa - below ⟨mantissa, exponent⟩ → mantissa % 2 = 0) := by
    unfold below
    split
    · next hleast =>
      have hleast : (mantissa : ℚ) = 2 ^ 52 := by exact_mod_cast hleast
      constructor
      · linarith
      · intro heq
        linarith
    · exact ⟨hrounded.low, fun heq => hrounded.even (.inl heq)⟩
  refine ⟨(le_div_iff₀ hunit).mp hbelow.1, (div_le_iff₀ hunit).mp hrounded.high, ?_⟩
  rintro (heq | heq)
  · exact hbelow.2 ((div_eq_iff hunit.ne').mpr heq)
  · exact hrounded.even (.inr ((div_eq_iff hunit.ne').mpr heq))

/-- What is rounded to one bit too many is covered by the least mantissa of the next exponent. -/
theorem Binary.covers_next (exponent : ℤ) (x : ℚ)
    (hrounded : IsRounded (x / 2 ^ exponent) (2 * leastMantissa))
    (hhigh : x / 2 ^ exponent < 2 ^ 53) : Covers ⟨leastMantissa, exponent + 1⟩ x := by
  have hunit := two_zpow_pos exponent
  have hlow := hrounded.low
  rw [le_div_iff₀ hunit] at hlow
  rw [div_lt_iff₀ hunit] at hhigh
  simp only [leastMantissa_eq] at hlow
  push_cast at hlow
  have heven : leastMantissa % 2 = 0 := rfl
  refine ⟨?_, ?_, fun _ => heven⟩
  · rw [below, if_pos rfl, zpow_add_one₀ two_ne_zero, leastMantissa_eq]
    push_cast
    linarith
  · rw [zpow_add_one₀ two_ne_zero, leastMantissa_eq]
    push_cast
    linarith

/-- A quotient is rounded to a number of full precision that covers it. -/
theorem covers_nearestOfCoprime (numerator denominator : ℕ) (hn : 0 < numerator)
    (hd : 0 < denominator) :
    (nearestOfCoprime numerator denominator).IsNormal ∧
      (nearestOfCoprime numerator denominator).Covers (numerator / denominator) := by
  obtain ⟨hlow, hhigh⟩ := leadingExponent_bounds numerator denominator hn hd
  simp only [nearestOfCoprime]
  generalize leadingExponent numerator denominator = exponent at hlow hhigh ⊢
  have hrounded := isRounded_roundHalfEven (inUnits numerator denominator exponent).1 _
    (inUnits_pos numerator denominator exponent hd)
  rw [inUnits_ratio] at hrounded
  generalize roundHalfEven _ _ = mantissa at hrounded ⊢
  split
  · next hcarry =>
    have hmost : leastMantissa < 2 * leastMantissa := by decide
    exact ⟨⟨le_rfl, hmost⟩, Binary.covers_next _ _ (hcarry ▸ hrounded) hhigh⟩
  · next hsmall =>
    refine ⟨⟨?_, ?_⟩, Binary.covers_of_isRounded _ _ _ hrounded hlow⟩
    · have hmore : (2 ^ 52 : ℚ) < mantissa + 1 := by linarith [hrounded.high]
      exact Nat.lt_succ_iff.mp (by exact_mod_cast hmore)
    · have hless : (mantissa : ℚ) < 2 ^ 53 + 1 := by linarith [hrounded.low]
      have hle : mantissa ≤ 2 * leastMantissa := Nat.lt_succ_iff.mp (by exact_mod_cast hless)
      exact lt_of_le_of_ne hle hsmall

/-- A quotient is rounded to a number of full precision that covers it. -/
theorem covers_nearest (numerator denominator : ℕ) (hn : 0 < numerator) (hd : 0 < denominator) :
    (nearest numerator denominator).IsNormal ∧
      (nearest numerator denominator).Covers (numerator / denominator) := by
  have hcommon : 0 < numerator.gcd denominator := Nat.gcd_pos_of_pos_left _ hn
  have hcovers := covers_nearestOfCoprime (numerator / numerator.gcd denominator)
    (denominator / numerator.gcd denominator)
    (Nat.div_pos (Nat.le_of_dvd hn (Nat.gcd_dvd_left _ _)) hcommon)
    (Nat.div_pos (Nat.le_of_dvd hd (Nat.gcd_dvd_right _ _)) hcommon)
  have hne : (numerator.gcd denominator : ℚ) ≠ 0 := by exact_mod_cast hcommon.ne'
  rwa [Nat.cast_div (Nat.gcd_dvd_left _ _) hne, Nat.cast_div (Nat.gcd_dvd_right _ _) hne,
    div_div_div_cancel_right₀ hne] at hcovers

/-- The number that a quotient is rounded to is the one of full precision that covers it. -/
theorem nearest_eq_iff (numerator denominator : ℕ) (hn : 0 < numerator) (hd : 0 < denominator)
    (b : Binary) :
    nearest numerator denominator = b ↔ b.IsNormal ∧ b.Covers (numerator / denominator) := by
  obtain ⟨hnormal, hcovers⟩ := covers_nearest numerator denominator hn hd
  constructor
  · rintro rfl
    exact ⟨hnormal, hcovers⟩
  · rintro ⟨hb, hcovers'⟩
    exact hcovers.unique _ _ _ hcovers' hnormal hb

/-- A natural with no more bits than the precision asks is a number of full precision. -/
theorem exists_value_eq_natCast (n : ℕ) (hpos : 0 < n) (hn : n < 2 ^ 53) :
    ∃ b : Binary, b.IsNormal ∧ b.value = n ∧ b.exponent ≤ 0 := by
  have hlog : n.log2 < 53 := (Nat.log2_lt hpos.ne').mpr hn
  have hshift : 2 ^ n.log2 * 2 ^ (52 - n.log2) = 2 ^ 52 := by
    rw [← Nat.pow_add, Nat.add_sub_of_le (Nat.le_of_lt_succ hlog)]
  refine ⟨⟨n * 2 ^ (52 - n.log2), -(52 - n.log2 : ℕ)⟩, ⟨?_, ?_⟩, ?_, by simp⟩
  · rw [leastMantissa_eq, ← hshift]
    exact Nat.mul_le_mul_right _ (Nat.log2_self_le hpos.ne')
  · have hlt := Nat.mul_lt_mul_of_pos_right (Nat.lt_log2_self (n := n))
      (Nat.two_pow_pos (52 - n.log2))
    rwa [Nat.pow_succ, Nat.mul_right_comm, hshift, Nat.mul_comm (2 ^ 52)] at hlt
  · rw [Binary.value, zpow_neg, zpow_natCast]
    push_cast
    rw [mul_assoc, mul_inv_cancel₀ (by positivity), mul_one]

/-- A natural with no more bits than the precision asks is rounded to itself. -/
theorem value_nearest_natCast (n : ℕ) (hpos : 0 < n) (hn : n < 2 ^ 53) :
    (nearest n 1).IsNormal ∧ (nearest n 1).value = n ∧ (nearest n 1).exponent ≤ 0 := by
  obtain ⟨b, hnormal, hvalue, hexponent⟩ := exists_value_eq_natCast n hpos hn
  have hnearest : nearest n 1 = b := by
    refine (nearest_eq_iff n 1 hpos one_pos b).mpr ⟨hnormal, ?_⟩
    rw [Nat.cast_one, div_one, ← hvalue]
    exact b.covers_value
  rw [hnearest]
  exact ⟨hnormal, hvalue, hexponent⟩

/-- What a number covers is at most half a unit of its last bit away from it. -/
theorem Binary.Covers.abs_sub_value_le (b : Binary) (x : ℚ) (h : b.Covers x) :
    |x - b.value| ≤ 2 ^ b.exponent / 2 := by
  have hlow := h.low
  have hhigh := h.high
  have hbelow := mul_le_mul_of_nonneg_right b.below_bounds.2 (two_zpow_pos b.exponent).le
  rw [Binary.value, abs_le]
  constructor <;> linarith

/-- A quotient is not larger than another one by the same divisor that is rounded to the same number,
if the numerator of the other has fewer bits than the precision asks. -/
theorem numerator_le_of_nearest_eq (first second denominator : ℕ) (hfirst : 0 < first)
    (hsecond : 0 < second) (hd : 0 < denominator) (hbits : second < 2 ^ 52)
    (h : nearest first denominator = nearest second denominator) : first ≤ second := by
  obtain ⟨-, hcovers⟩ := covers_nearest first denominator hfirst hd
  obtain ⟨hnormal, hcovers'⟩ := covers_nearest second denominator hsecond hd
  rw [h] at hcovers
  generalize nearest second denominator = b at hnormal hcovers hcovers'
  by_contra hlt
  have hunit := two_zpow_pos b.exponent
  have hdpos : (0 : ℚ) < denominator := by exact_mod_cast hd
  have hnext : (second + 1 : ℚ) ≤ first := by exact_mod_cast Nat.lt_of_not_le hlt
  -- the quotients differ by a part of the divisor, and the interval is one unit wide at most
  have hwidth : (first / denominator - second / denominator : ℚ) ≤ 2 ^ b.exponent := by
    have hnear := abs_le.mp hcovers.abs_sub_value_le
    have hnear' := abs_le.mp hcovers'.abs_sub_value_le
    linarith
  rw [← sub_div, div_le_iff₀ hdpos] at hwidth
  have hlow : (2 ^ 52 - 1 / 4) * 2 ^ b.exponent * denominator ≤ (second : ℚ) := by
    rw [← le_div_iff₀ hdpos]
    exact (mul_le_mul_of_nonneg_right hnormal.low_bound hunit.le).trans hcovers'.low
  have hless : (second + 1 : ℚ) ≤ 2 ^ 52 := by exact_mod_cast hbits
  nlinarith

end UnitSystems.Decimal
