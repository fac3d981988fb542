import Mathlib.Order.Bounds.Basic
import UnitSystems.Proofs.Dimension.Group

/-!
# Powers and roots of dimensions

A power of a dimension holds the exact products, as far as these fit, and a root undoes the power
of its degree. A root fails for one of three reasons: its degree is zero, its degree is minus one
and an exponent is the smallest one, or its degree leaves a remainder somewhere, and then the first
such position is reported. Powers of powers multiply, and powers spread over sums.
-/

namespace UnitSystems.Dimension

/-- Positions of the exponents that a divisor does not divide. -/
def undivided (d : Dimension) (k : Int32) : Set Nat :=
  { i | ∃ n, d.values[i]? = some n ∧ ¬ k.toInt ∣ n }

section

variable (d : Dimension) (k : Int32)

/-- The result of a power is the dimension of the exact products. -/
theorem power_eq_ok_iff (v : Dimension) :
    d.power k = .ok v ↔ v.values = d.values.map (· * k.toInt) := by
  by_cases hfits : ∀ n ∈ d.values, Fits (n * k.toInt)
  · obtain ⟨w, hw, hvalues⟩ := d.power_ok k hfits
    rw [hw, Except.ok.injEq, ← hvalues]
    exact ⟨fun heq => heq ▸ rfl, fun h => (values_injective v w h).symm⟩
  · rw [d.power_overflow k hfits]
    refine iff_of_false nofun fun h => hfits ?_
    rw [← List.forall_mem_map (P := Fits), ← h]
    exact v.fits_of_mem_values

/-- A power fails exactly when a product does not fit. -/
theorem power_eq_error_iff (error : DimensionError) : d.power k = .error error ↔
    (¬ ∀ n ∈ d.values, Fits (n * k.toInt)) ∧ error = .overflow := by
  by_cases hfits : ∀ n ∈ d.values, Fits (n * k.toInt)
  · obtain ⟨w, hw, -⟩ := d.power_ok k hfits
    rw [hw]
    exact iff_of_false nofun fun h => h.1 hfits
  · rw [d.power_overflow k hfits, and_iff_right hfits, Except.error.injEq, eq_comm]

/-- A power exists exactly when all products fit. -/
theorem exists_power_iff : (∃ v, d.power k = .ok v) ↔ ∀ n ∈ d.values, Fits (n * k.toInt) := by
  cases hpower : d.power k with
  | ok v =>
    refine iff_of_true ⟨v, rfl⟩ ?_
    by_contra hfits
    rw [d.power_overflow k hfits] at hpower
    contradiction
  | error error => exact iff_of_false nofun ((d.power_eq_error_iff k error).mp hpower).1

/-- The smallest exponent is the only one whose negation does not fit. -/
theorem fits_neg_iff (e : Int32) : Fits (-e.toInt) ↔ e ≠ Int32.minValue := by
  have hlow := e.le_toInt
  have hhigh := e.toInt_lt
  rw [← Int32.toInt_inj.ne, Fits, Int32.toInt_minValue, Int32.toInt_maxValue]
  omega

/-- All quotients of multiples fit, unless the divisor is minus one and an exponent the smallest
one. -/
theorem fits_quotients_iff (hdvd : ∀ n ∈ d.values, k.toInt ∣ n) :
    (∀ n ∈ d.values, Fits (n / k.toInt)) ↔ ¬(k = -1 ∧ Int32.minValue ∈ d.exponents) := by
  by_cases hk : k = -1
  · subst hk
    have hone : (-1 : Int32).toInt = -1 := by decide
    rw [and_iff_right rfl, values, List.forall_mem_map, hone]
    simp only [Int.ediv_neg, Int.ediv_one, fits_neg_iff]
    exact ⟨fun h hmem => h _ hmem rfl, fun h e he heq => h (heq ▸ he)⟩
  · refine iff_of_true (fun n hn => ?_) fun h => hk h.1
    rw [← Int.tdiv_eq_ediv_of_dvd (hdvd n hn)]
    exact fits_tdiv n _ (d.fits_of_mem_values n hn) fun h => hk (Int32.toInt_inj.mp h)

/-- Where the first exponent stands that a divisor does not divide. -/
theorem isLeast_undivided {before after : List Int32} {e : Int32}
    (hd : d.exponents = before ++ e :: after) (hbefore : ∀ n ∈ before.map Int32.toInt, k.toInt ∣ n)
    (he : ¬ k.toInt ∣ e.toInt) : IsLeast (d.undivided k) before.length := by
  have hvalues : d.values = before.map Int32.toInt ++ e.toInt :: after.map Int32.toInt := by
    rw [values, hd, List.map_append, List.map_cons]
  refine ⟨⟨e.toInt, by simp [hvalues], he⟩, fun i hi => ?_⟩
  obtain ⟨n, hn, hndvd⟩ := hi
  by_contra hlt
  rw [hvalues, List.getElem?_append_left (by rw [List.length_map]; omega)] at hn
  exact hndvd (hbefore n (List.mem_of_getElem? hn))

/-- The exponents that a divisor does not divide are those at such positions. -/
theorem nonempty_undivided_iff : (d.undivided k).Nonempty ↔ ¬ ∀ n ∈ d.values, k.toInt ∣ n := by
  simp only [not_forall, List.mem_iff_getElem?, Set.Nonempty, undivided, Set.mem_ofPred_eq,
    exists_prop]
  exact ⟨fun ⟨i, n, hn, h⟩ => ⟨n, ⟨i, hn⟩, h⟩, fun ⟨n, ⟨i, hn⟩, h⟩ => ⟨i, n, hn, h⟩⟩

/-- How a root fails. -/
theorem root_eq_error_iff (error : DimensionError) : d.root k = .error error ↔
    (k = 0 ∧ error = .zeroDivisor) ∨
      (k = -1 ∧ Int32.minValue ∈ d.exponents ∧ error = .overflow) ∨
      (k ≠ 0 ∧ ∃ position, IsLeast (d.undivided k) position ∧
        error = .notDivisible d k position) := by
  by_cases hk : k = 0
  · subst hk
    rw [root, if_pos rfl, Except.error.injEq]
    simp [eq_comm]
  by_cases hdvd : ∀ n ∈ d.values, k.toInt ∣ n
  · have hnone (position : Nat) : ¬IsLeast (d.undivided k) position := fun h =>
      (d.nonempty_undivided_iff k).mp ⟨_, h.1⟩ hdvd
    by_cases hfits : ∀ n ∈ d.values, Fits (n / k.toInt)
    · obtain ⟨v, hv, -⟩ := d.root_ok k hk hdvd hfits
      have hout := (d.fits_quotients_iff k hdvd).mp hfits
      rw [hv]
      refine iff_of_false (by simp) ?_
      rintro (h | h | ⟨-, position, h, -⟩)
      · exact hk h.1
      · exact hout ⟨h.1, h.2.1⟩
      · exact hnone position h
    · have hout := Decidable.not_not.mp (mt (d.fits_quotients_iff k hdvd).mpr hfits)
      rw [d.root_overflow k hk hdvd hfits, Except.error.injEq]
      constructor
      · rintro rfl
        exact .inr (.inl ⟨hout.1, hout.2, rfl⟩)
      · rintro (h | h | ⟨-, position, h, -⟩)
        · exact absurd h.1 hk
        · exact h.2.2.symm
        · exact absurd h (hnone position)
  · obtain ⟨before, e, after, hd, hbefore, he, hroot⟩ := d.root_notDivisible k hk hdvd
    have hleast := d.isLeast_undivided k hd hbefore he
    have hunit : k ≠ -1 := by
      rintro rfl
      exact he (Int.neg_dvd.mpr (Int.one_dvd _))
    rw [hroot, Except.error.injEq]
    constructor
    · rintro rfl
      exact .inr (.inr ⟨hk, before.length, hleast, rfl⟩)
    · rintro (h | h | ⟨-, position, h, rfl⟩)
      · exact absurd h.1 hk
      · exact absurd h.1 hunit
      · rw [hleast.unique h]

/-- A root undoes the power of its degree. -/
theorem root_eq_ok_iff (hk : k ≠ 0) (v : Dimension) : d.root k = .ok v ↔ v.power k = .ok d := by
  have hne : k.toInt ≠ 0 := mt (toInt_eq_zero_iff k).mp hk
  rw [power_eq_ok_iff]
  constructor
  · intro h
    have hdvd : ∀ n ∈ d.values, k.toInt ∣ n := by
      by_contra hdvd
      obtain ⟨_, _, _, -, -, -, hroot⟩ := d.root_notDivisible k hk hdvd
      rw [hroot] at h
      contradiction
    have hfits : ∀ n ∈ d.values, Fits (n / k.toInt) := by
      by_contra hfits
      rw [d.root_overflow k hk hdvd hfits] at h
      contradiction
    obtain ⟨w, hw, hvalues⟩ := d.root_ok k hk hdvd hfits
    obtain rfl := Except.ok.inj (hw.symm.trans h)
    rw [hvalues, List.map_map]
    refine ((List.map_congr_left fun n hn => ?_).trans (List.map_id _)).symm
    exact Int.ediv_mul_cancel (hdvd n hn)
  · intro h
    have hquotient (n : Int) : n * k.toInt / k.toInt = n := Int.mul_ediv_cancel n hne
    have hdvd : ∀ n ∈ d.values, k.toInt ∣ n := by
      rw [h, List.forall_mem_map]
      exact fun n _ => Int.dvd_mul_left n _
    have hfits : ∀ n ∈ d.values, Fits (n / k.toInt) := by
      simp only [h, List.forall_mem_map, hquotient]
      exact v.fits_of_mem_values
    obtain ⟨w, hw, hvalues⟩ := d.root_ok k hk hdvd hfits
    have hequal : w = v := by
      apply values_injective
      rw [hvalues, h, List.map_map]
      exact (List.map_congr_left fun n _ => hquotient n).trans (List.map_id _)
    rw [hw, hequal]

/-- The report of a remainder shows the exponent at its position, which is one of the dimension. -/
theorem exists_message_notDivisible {position : Nat} (h : IsLeast (d.undivided k) position) :
    ∃ n, d.values[position]? = some n ∧ ¬ k.toInt ∣ n ∧
      (DimensionError.notDivisible d k position).message =
        "exponent " ++ n.repr ++ " at position " ++ position.repr ++ " of " ++ d.text ++
          " is not divisible by " ++ k.toInt.repr := by
  obtain ⟨⟨n, hn, hdvd⟩, -⟩ := h
  refine ⟨n, hn, hdvd, ?_⟩
  rw [values, List.getElem?_map, Option.map_eq_some_iff] at hn
  obtain ⟨e, he, rfl⟩ := hn
  have hget : d.exponents.getD position 0 = e := by
    rw [List.getD_eq_getElem?_getD, he, Option.getD_some]
  rw [← hget]
  rfl

/-- The outcome of a power depends on the exact products alone. -/
theorem power_eq_power (d' : Dimension) (k' : Int32)
    (h : d.values.map (· * k.toInt) = d'.values.map (· * k'.toInt)) : d.power k = d'.power k' := by
  have hfits : (∀ n ∈ d.values, Fits (n * k.toInt)) ↔ ∀ n ∈ d'.values, Fits (n * k'.toInt) := by
    rw [← List.forall_mem_map (P := Fits), h, List.forall_mem_map]
  cases hpower : d.power k with
  | ok v => exact ((d'.power_eq_ok_iff k' v).mpr (h ▸ (d.power_eq_ok_iff k v).mp hpower)).symm
  | error error =>
    rw [power_eq_error_iff, hfits] at hpower
    exact ((d'.power_eq_error_iff k' error).mpr hpower).symm

/-- The power of a power has the product of the degrees. -/
theorem power_power (j jk : Int32) (hjk : exponent? (j.toInt * k.toInt) = some jk) {e : Dimension}
    (h : d.power j = .ok e) : e.power k = d.power jk := by
  apply power_eq_power
  rw [(d.power_eq_ok_iff j e).mp h, List.map_map, exponent?_eq_some_iff.mp hjk]
  exact List.map_congr_left fun n _ => Int.mul_assoc n _ _

/-- The power of a sum is the sum of the powers. -/
theorem power_add (a b : Dimension) {s ak bk : Dimension} (hs : a.add b = .ok s)
    (ha : a.power k = .ok ak) (hb : b.power k = .ok bk) : s.power k = ak.add bk := by
  obtain ⟨harity, hsum⟩ := ((isExact_zip _ a b).result s).mp hs
  have hak := (a.power_eq_ok_iff k ak).mp ha
  have hbk := (b.power_eq_ok_iff k bk).mp hb
  have hpowers : ak.arity = bk.arity := by
    rw [← ak.length_values, ← bk.length_values, hak, hbk, List.length_map, List.length_map,
      a.length_values, b.length_values, harity]
  have hproducts : s.values.map (· * k.toInt) = List.zipWith (· + ·) ak.values bk.values := by
    rw [hsum, hak, hbk, List.map_zipWith, List.zipWith_map]
    exact congrArg (fun op => List.zipWith op _ _) (funext₂ fun m n => Int.add_mul m n _)
  cases hpower : s.power k with
  | ok v =>
    refine (((isExact_zip _ ak bk).result v).mpr ⟨hpowers, ?_⟩).symm
    rw [← hproducts]
    exact (s.power_eq_ok_iff k v).mp hpower
  | error error =>
    refine (((isExact_zip _ ak bk).failure error).mpr (.inr ⟨hpowers, ?_⟩)).symm
    rw [← hproducts, List.forall_mem_map]
    exact (s.power_eq_error_iff k error).mp hpower

end

/-- Powers are exact and roots are their inverses. A power exists when all products fit and holds
them. A root of another degree than zero is what has the dimension as its power. It fails for the
degree zero, for the degree minus one where an exponent is the smallest, and otherwise where the
degree leaves a remainder: then the dimension, the degree and the first such position are reported,
and the report shows the exponent there. Powers of powers multiply and powers spread over sums,
overflows included. -/
theorem powers_and_roots (d : Dimension) (k : Int32) :
    ((∃ v, d.power k = .ok v) ↔ ∀ n ∈ d.values, Fits (n * k.toInt)) ∧
    (∀ v, d.power k = .ok v ↔ v.values = d.values.map (· * k.toInt)) ∧
    (k ≠ 0 → ∀ v, (d.power k = .ok v ↔ v.root k = .ok d) ∧ (d.root k = .ok v ↔ v.power k = .ok d)) ∧
    (d.root k = .error .zeroDivisor ↔ k = 0) ∧
    (d.root k = .error .overflow ↔ k = -1 ∧ Int32.minValue ∈ d.exponents) ∧
    ((∃ whole divisor position, d.root k = .error (.notDivisible whole divisor position)) ↔
      k ≠ 0 ∧ ∃ n ∈ d.values, ¬ k.toInt ∣ n) ∧
    (∀ error, d.root k = .error error → error = .zeroDivisor ∨ error = .overflow ∨
      ∃ position, error = .notDivisible d k position ∧ IsLeast (d.undivided k) position ∧
        ∃ n, d.values[position]? = some n ∧ ¬ k.toInt ∣ n ∧ error.message =
          "exponent " ++ n.repr ++ " at position " ++ position.repr ++ " of " ++ d.text ++
            " is not divisible by " ++ k.toInt.repr) ∧
    (∀ j jk e, exponent? (j.toInt * k.toInt) = some jk → d.power j = .ok e →
      e.power k = d.power jk) ∧
    ∀ other s dk otherk, d.add other = .ok s → d.power k = .ok dk → other.power k = .ok otherk →
      s.power k = dk.add otherk := by
  refine ⟨d.exists_power_iff k, d.power_eq_ok_iff k,
    fun hk v => ⟨(v.root_eq_ok_iff k hk d).symm, d.root_eq_ok_iff k hk v⟩, ?_, ?_, ?_, ?_,
    fun j jk e hjk he => d.power_power k j jk hjk he,
    fun other _ _ _ hs hd ho => power_add k d other hs hd ho⟩
  · rw [root_eq_error_iff]
    simp
  · rw [root_eq_error_iff]
    simp
  · have hfirst : (d.undivided k).Nonempty ↔ ∃ n ∈ d.values, ¬ k.toInt ∣ n := by
      rw [nonempty_undivided_iff]
      push Not
      rfl
    rw [← hfirst]
    constructor
    · rintro ⟨whole, divisor, position, h⟩
      rcases (d.root_eq_error_iff k _).mp h with h | h | ⟨hk, first, hleast, -⟩
      · exact nomatch h.2
      · exact nomatch h.2.2
      · exact ⟨hk, first, hleast.1⟩
    · rintro ⟨hk, hsome⟩
      obtain ⟨before, e, after, -, -, -, hroot⟩ :=
        d.root_notDivisible k hk ((d.nonempty_undivided_iff k).mp hsome)
      exact ⟨d, k, before.length, hroot⟩
  · intro error herror
    rcases (d.root_eq_error_iff k error).mp herror with h | h | ⟨-, position, hleast, rfl⟩
    · exact .inl h.2
    · exact .inr (.inl h.2.2)
    · exact .inr (.inr ⟨position, rfl, hleast, d.exists_message_notDivisible k hleast⟩)

/-- A dimension with the smallest exponent has a root of degree minus two, which the power of that
degree undoes, but none of degree minus one. The remainder behind that exponent is reported where
it stands, and regrouped powers overflow together. -/
theorem powers_and_roots_extremes :
    let smallest : Dimension := ⟨[-2147483648, 6]⟩
    let half : Dimension := ⟨[1073741824, -3]⟩
    let other : Dimension := ⟨[-1, 1]⟩
    (half.power (-2) = .ok smallest ∧ smallest.root (-2) = .ok half) ∧
      smallest.root (-1) = .error .overflow ∧ smallest.root 0 = .error .zeroDivisor ∧
      (∃ position, smallest.root 4 = .error (.notDivisible smallest 4 position) ∧
        IsLeast (smallest.undivided 4) position) ∧
      (smallest.power (-1) = .error .overflow ∧ half.power 2 = .error .overflow) ∧
      (∃ sum, half.add other = .ok sum ∧ sum.power (-2) = smallest.add ⟨[2, -2]⟩) := by
  intro smallest half other
  have hpower : half.power (-2) = .ok smallest := by rfl
  have hover : smallest.power (-1) = .error .overflow := by rfl
  have hroot : smallest.root 4 = .error (.notDivisible smallest 4 1) := by rfl
  obtain ⟨-, -, hinverse, -, -, -, -, -, hsum⟩ := powers_and_roots half (-2)
  obtain ⟨-, -, -, -, hsmallest, -⟩ := powers_and_roots smallest (-1)
  obtain ⟨-, -, -, -, -, -, hreport, -⟩ := powers_and_roots smallest 4
  obtain ⟨-, -, -, -, -, -, -, hdouble, -⟩ := powers_and_roots half (-1)
  refine ⟨⟨hpower, ((hinverse (by decide) smallest).1).mp hpower⟩,
    hsmallest.mpr ⟨rfl, List.mem_cons_self⟩, rfl, ?_,
    ⟨hover, (hdouble (-2) 2 smallest rfl hpower).symm.trans hover⟩,
    ⟨_, rfl, hsum other _ smallest ⟨[2, -2]⟩ rfl hpower rfl⟩⟩
  rcases hreport _ hroot with h | h | ⟨position, h, hleast, -⟩
  · contradiction
  · contradiction
  · exact ⟨position, h ▸ hroot, hleast⟩

end UnitSystems.Dimension
