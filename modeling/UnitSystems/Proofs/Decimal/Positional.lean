import Mathlib.Data.List.TakeWhile
import UnitSystems.Proofs.Decimal.Shortest
import UnitSystems.Proofs.Text.Integers

/-!
# Decimals written positionally

What is written positionally, a sign and digits with at most one point among them, denotes the
decimal it was written for. A decimal without places behind the point is written like the integer it
is equal to.
-/

namespace UnitSystems.Decimal

/-- The number that digits denote, those behind a point in front of smaller and smaller powers. -/
def valueOfDigits (text : List Char) : ℚ :=
  let whole := text.takeWhile (· != '.')
  let fraction := text.drop (whole.length + 1)
  Nat.ofDigitChars 10 whole 0 + Nat.ofDigitChars 10 fraction 0 / 10 ^ fraction.length

/-- The number that digits denote, with a minus sign in front of a negative one. -/
def valueOfText : List Char → ℚ
  | '-' :: digits => -valueOfDigits digits
  | digits => valueOfDigits digits

/-- A point is no digit. -/
theorem ne_point_of_mem_toDigits (n : ℕ) (c : Char) (h : c ∈ Nat.toDigits 10 n) :
    (c != '.') = true := by
  rw [bne_iff_ne]
  rintro rfl
  exact absurd (isDigit_of_mem_toDigits n '.' h) (by decide)

/-- Digits without a point denote a natural. -/
theorem valueOfDigits_whole (digits : List Char) (h : ∀ c ∈ digits, (c != '.') = true) :
    valueOfDigits digits = Nat.ofDigitChars 10 digits 0 := by
  have hwhole : digits.takeWhile (· != '.') = digits := by
    rw [List.takeWhile_eq_self_iff]
    exact h
  have hnone : digits.drop (digits.length + 1) = [] := List.drop_eq_nil_of_le (Nat.le_succ _)
  simp [valueOfDigits, hwhole, hnone]

/-- Digits with a point among them denote the sum of a natural and a fraction. -/
theorem valueOfDigits_point (whole fraction : List Char) (h : ∀ c ∈ whole, (c != '.') = true) :
    valueOfDigits (whole ++ '.' :: fraction) =
      Nat.ofDigitChars 10 whole 0 + Nat.ofDigitChars 10 fraction 0 / 10 ^ fraction.length := by
  have hwhole : (whole ++ '.' :: fraction).takeWhile (· != '.') = whole := by
    rw [List.takeWhile_append_of_pos h]
    simp
  have hfraction : (whole ++ '.' :: fraction).drop (whole.length + 1) = fraction := by
    rw [← List.drop_drop, List.drop_left]
    rfl
  simp only [valueOfDigits, hwhole, hfraction]

/-- A number below a power of ten has as many places as the power, with zeros in front. -/
theorem length_places (n places : ℕ) (h : n < tenTo (places + 1)) :
    (List.replicate (places + 1 - (Nat.toDigits 10 n).length) '0' ++ Nat.toDigits 10 n).length =
      places + 1 := by
  have hle := (Nat.length_toDigits_le_iff (b := 10) (by decide) (Nat.succ_pos places)).mpr h
  rw [List.length_append, List.length_replicate]
  omega

/-- What is written positionally denotes the decimal. -/
theorem valueOfDigits_positional (s : Scaled) : valueOfDigits s.positional = s.value := by
  obtain ⟨digits, exponent⟩ := s
  cases exponent with
  | ofNat zeros =>
    have hpoint : ∀ c ∈ Nat.toDigits 10 digits ++ List.replicate zeros '0', (c != '.') = true := by
      rw [List.forall_mem_append]
      exact ⟨ne_point_of_mem_toDigits digits, fun c hc => by rw [List.eq_of_mem_replicate hc]; rfl⟩
    rw [Scaled.positional, valueOfDigits_whole _ hpoint, Nat.ofDigitChars_append,
      Nat.ofDigitChars_ten_toDigits, Nat.ofDigitChars_replicate_zero, Scaled.value,
      Int.ofNat_eq_natCast, zpow_natCast]
    push_cast
    ring
  | negSucc places =>
    have hrest : digits % tenTo (places + 1) < tenTo (places + 1) :=
      Nat.mod_lt _ (Reach.tenTo_pos _)
    have hsplit : (digits : ℚ) = (digits / tenTo (places + 1) : ℕ) * 10 ^ (places + 1) +
        (digits % tenTo (places + 1) : ℕ) := by
      exact_mod_cast (Nat.div_add_mod' digits (tenTo (places + 1))).symm
    have hvalue : Scaled.value ⟨digits, .negSucc places⟩ = digits / 10 ^ (places + 1) := by
      rw [Scaled.value, zpow_negSucc, div_eq_mul_inv]
    simp only [Scaled.positional, withPoint]
    rw [valueOfDigits_point _ _ (ne_point_of_mem_toDigits _), length_places _ _ hrest,
      Nat.ofDigitChars_append, Nat.ofDigitChars_replicate_zero, Nat.mul_zero,
      Nat.ofDigitChars_ten_toDigits, Nat.ofDigitChars_ten_toDigits, hvalue, hsplit]
    field_simp

/-- What is written positionally begins with a digit. -/
theorem positional_ne_cons (s : Scaled) (digits : List Char) : s.positional ≠ '-' :: digits := by
  have hdigits (n : ℕ) (rest : List Char) : Nat.toDigits 10 n ++ rest ≠ '-' :: digits := by
    obtain ⟨first, more, hfirst⟩ := List.exists_cons_of_length_pos
      (Nat.length_toDigits_pos (b := 10) (n := n))
    intro heq
    rw [hfirst, List.cons_append] at heq
    have hdigit := isDigit_of_mem_toDigits n first (hfirst ▸ List.mem_cons_self)
    rw [(List.cons.inj heq).1] at hdigit
    exact absurd hdigit (by decide)
  obtain ⟨count, exponent⟩ := s
  cases exponent with
  | ofNat zeros => exact hdigits count _
  | negSucc places => exact hdigits _ _

/-- Zeros behind the digits of a positive number multiply it by powers of ten. -/
theorem toDigits_append_zeros (n zeros : ℕ) (h : 0 < n) :
    Nat.toDigits 10 n ++ List.replicate zeros '0' = Nat.toDigits 10 (n * 10 ^ zeros) := by
  induction zeros with
  | zero => simp
  | succ zeros ih =>
    have hlast := Nat.toDigits_append_toDigits (b := 10) (n := n * 10 ^ zeros) (d := 0) (by decide)
      (by positivity) (by decide)
    rw [List.replicate_succ', ← List.append_assoc, ih, Nat.pow_succ, ← Nat.mul_assoc,
      Nat.mul_comm _ 10]
    exact hlast

/-- A natural that is written as a decimal without places is written like the natural. -/
theorem positional_natCast (s : Scaled) (n : ℕ) (hpos : 0 < n) (hvalue : s.value = n)
    (hexponent : 0 ≤ s.exponent) : s.positional = Nat.toDigits 10 n := by
  obtain ⟨digits, exponent⟩ := s
  obtain ⟨zeros, rfl⟩ := Int.eq_ofNat_of_zero_le hexponent
  have hproduct : digits * 10 ^ zeros = n := by
    rw [Scaled.value, zpow_natCast] at hvalue
    exact_mod_cast hvalue
  have hdigits : 0 < digits := Nat.pos_of_mul_pos_right (hproduct ▸ hpos)
  rw [← hproduct, ← toDigits_append_zeros digits zeros hdigits]
  rfl

/-- A natural with no more bits than the precision asks is written as it is. -/
theorem positional_nearest_natCast (n : ℕ) (hpos : 0 < n) (hn : n < 2 ^ 53) :
    (nearest n 1).shortest.positional = Nat.toDigits 10 n := by
  obtain ⟨hnormal, hvalue, hbits⟩ := value_nearest_natCast n hpos hn
  have hexponent : 0 ≤ (nearest n 1).shortest.exponent := by
    refine (nearest n 1).le_exponent_shortest hnormal n 0 ?_
    rw [zpow_zero, mul_one, ← hvalue]
    exact Binary.covers_value _
  refine positional_natCast _ n hpos ?_ hexponent
  have hnear := ((nearest n 1).covers_shortest hnormal).abs_sub_value_le
  rw [hvalue] at hnear
  have hunit : (2 : ℚ) ^ (nearest n 1).exponent ≤ 1 := zpow_le_one_of_nonpos₀ one_le_two hbits
  -- a decimal without places is a natural, and no other natural is that near
  obtain ⟨zeros, hzeros⟩ := Int.eq_ofNat_of_zero_le hexponent
  have hwhole : (nearest n 1).shortest.value =
      ((nearest n 1).shortest.digits * 10 ^ zeros : ℕ) := by
    rw [Scaled.value, hzeros, zpow_natCast]
    push_cast
    rfl
  rw [hwhole] at hnear ⊢
  have hless : |(((nearest n 1).shortest.digits * 10 ^ zeros : ℕ) : ℤ) - n| < 1 := by
    have hlt : |((((nearest n 1).shortest.digits * 10 ^ zeros : ℕ) : ℚ)) - n| < 1 :=
      hnear.trans_lt (by linarith)
    exact_mod_cast hlt
  rw [Int.abs_lt_one_iff, sub_eq_zero] at hless
  exact_mod_cast hless

/-- The text of a quotient denotes the decimal of the rounded quotient, with the sign of the
quotient. -/
theorem valueOfText_quotientText (numerator : ℤ) (denominator : ℕ) (hn : numerator ≠ 0)
    (hd : 0 < denominator) : valueOfText (quotientText numerator denominator).toList =
      numerator.sign * (nearest numerator.natAbs denominator).shortest.value := by
  rw [quotientText, String.toList_ofList, if_neg hd.ne', if_neg (Int.natAbs_ne_zero.mpr hn),
    ← valueOfDigits_positional]
  split
  · next hneg =>
    rw [Int.sign_eq_neg_one_of_neg hneg]
    simp [valueOfText]
  · next hnonneg =>
    rw [Int.sign_eq_one_of_pos (by omega), List.nil_append, valueOfText]
    · simp
    · exact positional_ne_cons _

end UnitSystems.Decimal
