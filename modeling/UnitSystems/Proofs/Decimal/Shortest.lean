import UnitSystems.Decimal.Shortest
import UnitSystems.Proofs.Decimal.Rounding

/-!
# Shortest decimals

The decimal that is written for a binary number of full precision rounds to that number again, and
no multiple of a larger power of ten does. The search tests only the two multiples next to the
value: when any multiple of a power of ten lies in the interval, one of these does.
-/

namespace UnitSystems.Decimal

/-- The number that digits and a power of ten denote. -/
def Scaled.value (s : Scaled) : ℚ :=
  s.digits * 10 ^ s.exponent

namespace Reach

/-- A number reaches what is not smaller, itself only in a closed interval. -/
theorem reaches_iff (r : Reach) (first second : ℕ) :
    r.reaches first second = true ↔ first ≤ second ∧ (first = second → r.closed = true) := by
  unfold reaches
  split
  · next hclosed => simp [hclosed]
  · next hopen =>
    rw [decide_eq_true_iff, lt_iff_le_and_ne]
    exact and_congr_right fun _ => ⟨fun hne heq => absurd heq hne, fun h heq => hopen (h heq)⟩

/-- A number reaches every larger one. -/
theorem reaches_of_lt (r : Reach) (first second : ℕ) (h : first < second) :
    r.reaches first second = true :=
  (r.reaches_iff first second).mpr ⟨h.le, fun heq => absurd heq h.ne⟩

/-- A number reaches what is at least as large as one that it reaches. -/
theorem reaches_of_le (r : Reach) (first second third : ℕ) (h : r.reaches first second = true)
    (hle : second ≤ third) : r.reaches first third = true := by
  rw [reaches_iff] at h ⊢
  exact ⟨h.1.trans hle, fun heq => h.2 (le_antisymm h.1 (heq ▸ hle))⟩

/-- A number is reached by what is at most as large as one that reaches it. -/
theorem reaches_of_ge (r : Reach) (first second third : ℕ) (h : r.reaches second third = true)
    (hle : first ≤ second) : r.reaches first third = true := by
  rw [reaches_iff] at h ⊢
  exact ⟨hle.trans h.1, fun heq => h.2 (le_antisymm h.1 (heq ▸ hle))⟩

/-- The value of an interval lies between its ends. -/
structure IsProper (r : Reach) : Prop where
  denominator : 0 < r.denominator
  low : r.low < r.value
  high : r.value < r.high

/-- A multiple of a power of ten lies in an interval. -/
structure Holds (r : Reach) (digits : ℕ) (exponent : ℤ) : Prop where
  low : r.reaches (r.low * tenTo (-exponent).toNat)
    (digits * (r.denominator * tenTo exponent.toNat)) = true
  high : r.reaches (digits * (r.denominator * tenTo exponent.toNat))
    (r.high * tenTo (-exponent).toNat) = true

/-- A power of ten is positive. -/
theorem tenTo_pos (count : ℕ) : 0 < tenTo count :=
  Nat.pow_pos (by decide)

section

variable (r : Reach) (hproper : r.IsProper) (exponent : ℤ)

include hproper

/-- The two multiples next to the value: it lies between them, and between the ends. -/
theorem floor_bounds :
    let scaled := r.value * tenTo (-exponent).toNat
    let step := r.denominator * tenTo exponent.toNat
    scaled / step * step ≤ scaled ∧ scaled < (scaled / step + 1) * step ∧
      r.low * tenTo (-exponent).toNat < scaled ∧ scaled < r.high * tenTo (-exponent).toNat := by
  have hdown := tenTo_pos (-exponent).toNat
  have hstep := Nat.mul_pos hproper.denominator (tenTo_pos exponent.toNat)
  refine ⟨Nat.div_mul_le_self _ _, ?_, Nat.mul_lt_mul_of_pos_right hproper.low hdown,
    Nat.mul_lt_mul_of_pos_right hproper.high hdown⟩
  exact (Nat.lt_mul_div_succ _ hstep).trans_eq (Nat.mul_comm _ _)

/-- The multiple that is found lies in the interval. -/
theorem holds_of_multiple (digits : ℕ) (h : r.multiple exponent = some digits) :
    r.Holds digits exponent := by
  obtain ⟨hfloor, hnext, hlow, hhigh⟩ := r.floor_bounds hproper exponent
  simp only [multiple] at h
  generalize r.value * tenTo (-exponent).toNat = scaled at h hfloor hnext hlow hhigh
  generalize hstep : r.denominator * tenTo exponent.toNat = step at h hfloor hnext
  have hbefore (hfits : r.reaches (r.low * tenTo (-exponent).toNat) (scaled / step * step) = true) :
      r.Holds (scaled / step) exponent :=
    ⟨by rw [hstep]; exact hfits, by rw [hstep]; exact r.reaches_of_lt _ _ (hfloor.trans_lt hhigh)⟩
  have hafter (hfits : r.reaches ((scaled / step + 1) * step)
      (r.high * tenTo (-exponent).toNat) = true) : r.Holds (scaled / step + 1) exponent :=
    ⟨by rw [hstep]; exact r.reaches_of_lt _ _ (hlow.trans hnext), by rw [hstep]; exact hfits⟩
  split at h
  · next hboth =>
    rw [Bool.and_eq_true] at hboth
    obtain rfl := Option.some.inj h
    split
    · exact hbefore hboth.1
    · exact hafter hboth.2
  · split at h
    · next hfits =>
      obtain rfl := Option.some.inj h
      exact hbefore hfits
    · split at h
      · next hfits =>
        obtain rfl := Option.some.inj h
        exact hafter hfits
      · cases h

end

/-- A multiple is found if any lies in the interval. -/
theorem isSome_multiple (r : Reach) (exponent : ℤ) (digits : ℕ) (h : r.Holds digits exponent) :
    (r.multiple exponent).isSome = true := by
  simp only [multiple]
  generalize hscaled : r.value * tenTo (-exponent).toNat = scaled
  generalize hstep : r.denominator * tenTo exponent.toNat = step
  obtain ⟨hlow, hhigh⟩ := h
  rw [hstep] at hlow hhigh
  have hfits : r.reaches (r.low * tenTo (-exponent).toNat) (scaled / step * step) = true ∨
      r.reaches ((scaled / step + 1) * step) (r.high * tenTo (-exponent).toNat) = true := by
    rcases Nat.lt_or_ge (scaled / step) digits with hlt | hge
    · exact .inr (r.reaches_of_ge _ _ _ hhigh (Nat.mul_le_mul_right step hlt))
    · exact .inl (r.reaches_of_le _ _ _ hlow (Nat.mul_le_mul_right step hge))
  split
  · rfl
  · split
    · rfl
    · next hfloor =>
      rw [if_pos (hfits.resolve_left hfloor)]
      rfl

/-- The search ends at a power of ten with a multiple in the interval, and at no smaller one than
any of those that it may try. -/
theorem coarsest_spec (r : Reach) (tries : ℕ) (start exponent : ℤ) (hstart : exponent ≤ start)
    (htries : start - exponent < tries) (h : (r.multiple exponent).isSome = true) :
    r.multiple (r.coarsest tries start).exponent = some (r.coarsest tries start).digits ∧
      exponent ≤ (r.coarsest tries start).exponent := by
  induction tries generalizing start with
  | zero => omega
  | succ tries ih =>
    rw [coarsest]
    split
    · next digits hfound => exact ⟨hfound, hstart⟩
    · next hnone =>
      have hne : exponent ≠ start := by
        rintro rfl
        rw [hnone] at h
        cases h
      exact ih (start - 1) (by omega) (by omega)

end Reach

namespace Binary

variable (b : Binary) (hnormal : b.IsNormal)

/-- The denominator of an interval is positive. -/
theorem reach_denominator_pos : 0 < b.reach.denominator := by
  simp only [reach, Nat.shiftLeft_eq]
  exact Nat.mul_pos (by decide) (Nat.two_pow_pos _)

/-- What is given in quarters of a unit of the last bit, over the denominator of the interval. -/
theorem quarters_ratio (quarters : ℕ) :
    ((quarters <<< b.exponent.toNat : ℕ) : ℚ) / b.reach.denominator =
      quarters / 4 * 2 ^ b.exponent := by
  simp only [reach, Nat.shiftLeft_eq, Nat.cast_mul, Nat.cast_pow, Nat.cast_ofNat,
    zpow_eq_div 2 two_ne_zero b.exponent]
  field_simp

/-- The interval ends where the numbers that round to its value end. -/
theorem reach_high_ratio : (b.reach.high : ℚ) / b.reach.denominator =
    (b.mantissa + 1 / 2) * 2 ^ b.exponent := by
  have hquarters : ((4 * b.mantissa + 2 : ℕ) : ℚ) / 4 = b.mantissa + 1 / 2 := by
    push_cast
    ring
  rw [← hquarters]
  exact b.quarters_ratio _

/-- The decimal of a number is found, and a multiple of no larger power of ten is. -/
theorem shortest_spec (exponent : ℤ) (hplaces : -(b.exponent.natAbs : ℤ) ≤ exponent)
    (hlength : exponent ≤ (Nat.toDigits 10 (b.reach.high / b.reach.denominator)).length)
    (h : (b.reach.multiple exponent).isSome = true) :
    b.reach.multiple b.shortest.exponent = some b.shortest.digits ∧
      exponent ≤ b.shortest.exponent :=
  b.reach.coarsest_spec _ _ exponent hlength (by omega) h

include hnormal

/-- The interval begins where the numbers that round to its value begin. -/
theorem reach_low_ratio : (b.reach.low : ℚ) / b.reach.denominator =
    (b.mantissa - b.below) * 2 ^ b.exponent := by
  have hleast := leastMantissa_eq ▸ hnormal.least
  have hquarters : ((4 * b.mantissa - (if b.mantissa = leastMantissa then 1 else 2) : ℕ) : ℚ) / 4 =
      b.mantissa - b.below := by
    unfold below
    split
    · rw [Nat.cast_sub (by omega)]
      push_cast
      ring
    · rw [Nat.cast_sub (by omega)]
      push_cast
      ring
  rw [← hquarters]
  exact b.quarters_ratio _

/-- The value of an interval lies between its ends. -/
theorem reach_isProper : b.reach.IsProper := by
  have hleast := leastMantissa_eq ▸ hnormal.least
  refine ⟨b.reach_denominator_pos, ?_, ?_⟩
  · simp only [reach, Nat.shiftLeft_eq]
    refine Nat.mul_lt_mul_of_pos_right ?_ (Nat.two_pow_pos _)
    split <;> omega
  · simp only [reach, Nat.shiftLeft_eq]
    exact Nat.mul_lt_mul_of_pos_right (by omega) (Nat.two_pow_pos _)

/-- A multiple of a power of ten lies in the interval of a number exactly when it rounds to it. -/
theorem holds_iff_covers (digits : ℕ) (exponent : ℤ) :
    b.reach.Holds digits exponent ↔ b.Covers (digits * 10 ^ exponent) := by
  have hden : (0 : ℚ) < b.reach.denominator := by exact_mod_cast b.reach_denominator_pos
  have hdown : (0 : ℚ) < tenTo (-exponent).toNat := by
    exact_mod_cast Reach.tenTo_pos (-exponent).toNat
  have hcommon := mul_pos hden hdown
  -- the multiple and the ends over one denominator
  have hmultiple : (digits * 10 ^ exponent : ℚ) =
      ((digits * (b.reach.denominator * tenTo exponent.toNat) : ℕ) : ℚ) /
        (b.reach.denominator * tenTo (-exponent).toNat) := by
    have hten (count : ℕ) : (tenTo count : ℚ) = 10 ^ count := by simp [tenTo]
    rw [zpow_eq_div 10 (by norm_num) exponent]
    push_cast
    rw [hten, hten]
    field_simp
  have hend (bound : ℕ) : (bound : ℚ) / b.reach.denominator =
      ((bound * tenTo (-exponent).toNat : ℕ) : ℚ) /
        (b.reach.denominator * tenTo (-exponent).toNat) := by
    push_cast
    rw [mul_div_mul_right _ _ hdown.ne']
  have hclosed : b.reach.closed = true ↔ b.mantissa % 2 = 0 := by simp [reach]
  have hcovers : b.Covers (digits * 10 ^ exponent) ↔
      (b.reach.low : ℚ) / b.reach.denominator ≤ digits * 10 ^ exponent ∧
        (digits * 10 ^ exponent : ℚ) ≤ b.reach.high / b.reach.denominator ∧
          ((digits * 10 ^ exponent : ℚ) = b.reach.low / b.reach.denominator ∨
            (digits * 10 ^ exponent : ℚ) = b.reach.high / b.reach.denominator →
              b.mantissa % 2 = 0) := by
    rw [b.reach_low_ratio hnormal, b.reach_high_ratio]
    exact ⟨fun ⟨hlow, hhigh, heven⟩ => ⟨hlow, hhigh, heven⟩,
      fun ⟨hlow, hhigh, heven⟩ => ⟨hlow, hhigh, heven⟩⟩
  rw [hcovers, hmultiple, hend, hend, div_le_div_iff_of_pos_right hcommon,
    div_le_div_iff_of_pos_right hcommon, div_left_inj' hcommon.ne', div_left_inj' hcommon.ne']
  norm_cast
  constructor
  · rintro ⟨hlow, hhigh⟩
    rw [Reach.reaches_iff, hclosed] at hlow hhigh
    exact ⟨hlow.1, hhigh.1, fun hends => hends.elim (fun h => hlow.2 h.symm) hhigh.2⟩
  · rintro ⟨hlow, hhigh, heven⟩
    refine ⟨?_, ?_⟩ <;> rw [Reach.reaches_iff, hclosed]
    · exact ⟨hlow, fun h => heven (.inl h.symm)⟩
    · exact ⟨hhigh, fun h => heven (.inr h)⟩

/-- A number has no more places behind the point than its exponent counts, so it is a multiple of
that power of ten itself. -/
theorem isSome_multiple_natAbs : (b.reach.multiple (-(b.exponent.natAbs : ℤ))).isSome = true := by
  set count := b.mantissa * 20 ^ b.exponent.toNat * 5 ^ (-b.exponent).toNat with hcount
  have hvalue : (count * 10 ^ (-(b.exponent.natAbs : ℤ)) : ℚ) = b.value := by
    have hplaces : b.exponent.natAbs = b.exponent.toNat + (-b.exponent).toNat := by omega
    have htwenty : (20 : ℚ) ^ b.exponent.toNat = 2 ^ b.exponent.toNat * 10 ^ b.exponent.toNat := by
      rw [← mul_pow]
      norm_num
    have hten : (10 : ℚ) ^ (-b.exponent).toNat =
        2 ^ (-b.exponent).toNat * 5 ^ (-b.exponent).toNat := by
      rw [← mul_pow]
      norm_num
    rw [hcount, value, zpow_neg, zpow_natCast, hplaces, pow_add, hten,
      zpow_eq_div 2 two_ne_zero b.exponent]
    push_cast
    rw [htwenty]
    field_simp
  refine b.reach.isSome_multiple _ count ((b.holds_iff_covers hnormal _ _).mpr ?_)
  rw [hvalue]
  exact b.covers_value

/-- The decimal of a number rounds to that number. -/
theorem covers_shortest : b.Covers b.shortest.value := by
  have hfound := (b.shortest_spec _ le_rfl (by omega) (b.isSome_multiple_natAbs hnormal)).1
  exact (b.holds_iff_covers hnormal _ _).mp
    (b.reach.holds_of_multiple (b.reach_isProper hnormal) _ _ hfound)

/-- The power of ten of a multiple that rounds to a number has no more zeros than there are digits
in front of the point. -/
theorem exponent_le_length (digits : ℕ) (exponent : ℤ) (h : b.Covers (digits * 10 ^ exponent)) :
    exponent ≤ (Nat.toDigits 10 (b.reach.high / b.reach.denominator)).length := by
  rcases Int.le_total exponent 0 with hle | hpos
  · omega
  obtain ⟨count, rfl⟩ := Int.eq_ofNat_of_zero_le hpos
  have hsome : digits ≠ 0 := by
    rintro rfl
    have hpositive := h.pos _ _ hnormal
    rw [Nat.cast_zero, zero_mul] at hpositive
    exact lt_irrefl 0 hpositive
  have hreaches := ((b.holds_iff_covers hnormal _ _).mpr h).high
  rw [Reach.reaches_iff] at hreaches
  have hdown : (-(count : ℤ)).toNat = 0 := by omega
  have hhigh : b.reach.denominator * tenTo count ≤ b.reach.high := by
    refine (Nat.le_mul_of_pos_left _ (Nat.pos_of_ne_zero hsome)).trans (hreaches.1.trans ?_)
    rw [hdown]
    exact (Nat.mul_one _).le
  have hquotient : 10 ^ count ≤ b.reach.high / b.reach.denominator := by
    rw [Nat.le_div_iff_mul_le b.reach_denominator_pos, Nat.mul_comm]
    exact hhigh
  by_contra hlt
  have hless := (Nat.length_toDigits_le_iff (b := 10) (k := count)
    (n := b.reach.high / b.reach.denominator) (by decide) (by omega)).mp (by omega)
  omega

/-- No multiple of a larger power of ten than that of its decimal rounds to a number. -/
theorem le_exponent_shortest (digits : ℕ) (exponent : ℤ) (h : b.Covers (digits * 10 ^ exponent)) :
    exponent ≤ b.shortest.exponent := by
  have hsome := b.reach.isSome_multiple _ digits ((b.holds_iff_covers hnormal _ _).mpr h)
  have hlength := b.exponent_le_length hnormal digits exponent h
  rcases Int.le_total exponent (-(b.exponent.natAbs : ℤ)) with hle | hge
  · exact hle.trans (b.shortest_spec _ le_rfl (by omega) (b.isSome_multiple_natAbs hnormal)).2
  · exact (b.shortest_spec exponent hge hlength hsome).2

end Binary

end UnitSystems.Decimal
