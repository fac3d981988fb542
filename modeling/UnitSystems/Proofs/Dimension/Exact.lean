import Mathlib.Data.List.Basic
import UnitSystems.Dimension.Operator

/-!
# Operations on dimensions as operations on integers

The exponents of a dimension are a list of integers. An operation has a result exactly when the
exact integers exist and fit, and the result then holds these integers. Where several exponents
of a root fail, the first one is reported.
-/

namespace UnitSystems

/-- Integers that an exponent can stand for. -/
def Fits (n : Int) : Prop :=
  Int32.minValue.toInt ≤ n ∧ n ≤ Int32.maxValue.toInt

instance (n : Int) : Decidable (Fits n) :=
  inferInstanceAs (Decidable (_ ∧ _))

/-- Every exponent stands for an integer that fits. -/
theorem fits_toInt (e : Int32) : Fits e.toInt := by
  have hhigh := e.toInt_lt
  refine ⟨e.le_toInt, ?_⟩
  rw [Int32.toInt_maxValue]
  omega

/-- An integer that fits has an exponent. -/
theorem exists_exponent (n : Int) (h : Fits n) : ∃ e, exponent? n = some e ∧ e.toInt = n := by
  cases he : exponent? n with
  | some e => exact ⟨e, rfl, exponent?_eq_some_iff.mp he⟩
  | none =>
    obtain ⟨hlow, hhigh⟩ := h
    have hout := exponent?_eq_none_iff.mp he
    omega

/-- An integer that does not fit has no exponent. -/
theorem exponent?_eq_none (n : Int) (h : ¬ Fits n) : exponent? n = none := by
  rw [exponent?_eq_none_iff]
  simp only [Fits] at h
  omega

/-- Zero is the only exponent that stands for zero. -/
theorem toInt_eq_zero_iff (e : Int32) : e.toInt = 0 ↔ e = 0 :=
  ⟨fun h => Int32.toInt_inj.mp (h.trans Int32.toInt_zero.symm), fun h => h ▸ Int32.toInt_zero⟩

/-- Rounding a quotient toward zero leaves the range only for a divisor of minus one. -/
theorem fits_tdiv (n k : Int) (hn : Fits n) (hk : k ≠ -1) : Fits (n.tdiv k) := by
  rw [Fits, Int32.toInt_minValue, Int32.toInt_maxValue] at hn ⊢
  have habs : (n.tdiv k).natAbs = n.natAbs / k.natAbs := Int.natAbs_tdiv _ _
  by_cases hunit : k.natAbs = 1
  · obtain rfl : k = 1 := by omega
    rw [Int.tdiv_one]
    omega
  · have hhalf : n.natAbs / k.natAbs ≤ n.natAbs / 2 := by
      by_cases hzero : k.natAbs = 0
      · simp [hzero]
      · exact Nat.div_le_div_left (by omega) (by omega)
    omega

namespace Dimension

/-- The exponents of a dimension as integers. -/
def values (d : Dimension) : List Int :=
  d.exponents.map Int32.toInt

/-- Exponents are determined by their integers. -/
theorem toInts_injective (es fs : List Int32) (h : es.map Int32.toInt = fs.map Int32.toInt) :
    es = fs :=
  List.map_injective_iff.mpr (fun _ _ => Int32.toInt_inj.mp) h

/-- A dimension is determined by its integers. -/
theorem values_injective (a b : Dimension) (h : a.values = b.values) : a = b :=
  congrArg Dimension.mk (toInts_injective _ _ h)

/-- A dimension has as many integers as base units. -/
theorem length_values (d : Dimension) : d.values.length = d.arity :=
  List.length_map _

/-- Every integer of a dimension fits. -/
theorem fits_of_mem_values (d : Dimension) (n : Int) (h : n ∈ d.values) : Fits n := by
  obtain ⟨e, -, rfl⟩ := List.mem_map.mp h
  exact fits_toInt e

/-- The integers of the dimension of a plain number are zero. -/
theorem values_dimensionless (arity : Nat) :
    (dimensionless arity).values = List.replicate arity 0 := by
  simp [values, dimensionless]

/-- Exponents are combined when all integers fit. -/
theorem combine_ok (op : Int → Int → Int) (as bs : List Int32)
    (h : ∀ n ∈ List.zipWith op (as.map Int32.toInt) (bs.map Int32.toInt), Fits n) :
    ∃ es, combine op as bs = .ok es ∧
      es.map Int32.toInt = List.zipWith op (as.map Int32.toInt) (bs.map Int32.toInt) := by
  induction as generalizing bs with
  | nil => exact ⟨[], rfl, rfl⟩
  | cons a as ih =>
    cases bs with
    | nil => exact ⟨[], rfl, rfl⟩
    | cons b bs =>
      simp only [List.map_cons, List.zipWith_cons_cons, List.forall_mem_cons] at h
      obtain ⟨e, hsome, hvalue⟩ := exists_exponent _ h.1
      obtain ⟨es, hrest, hvalues⟩ := ih bs h.2
      refine ⟨e :: es, ?_, ?_⟩
      · simp only [combine, hsome, hrest, Except.map]
      · simp only [List.map_cons, List.zipWith_cons_cons, hvalue, hvalues]

/-- Exponents are not combined when an integer does not fit. -/
theorem combine_overflow (op : Int → Int → Int) (as bs : List Int32)
    (h : ¬ ∀ n ∈ List.zipWith op (as.map Int32.toInt) (bs.map Int32.toInt), Fits n) :
    combine op as bs = .error .overflow := by
  induction as generalizing bs with
  | nil => simp at h
  | cons a as ih =>
    cases bs with
    | nil => simp at h
    | cons b bs =>
      simp only [List.map_cons, List.zipWith_cons_cons, List.forall_mem_cons, not_and] at h
      by_cases hfits : Fits (op a.toInt b.toInt)
      · obtain ⟨e, hsome, -⟩ := exists_exponent _ hfits
        simp only [combine, hsome, ih bs (h hfits), Except.map]
      · simp only [combine, exponent?_eq_none _ hfits]

/-- Two dimensions of one arity are combined when all integers fit. -/
theorem zip_ok (op : Int → Int → Int) (a b : Dimension) (harity : a.arity = b.arity)
    (h : ∀ n ∈ List.zipWith op a.values b.values, Fits n) :
    ∃ v, zip op a b = .ok v ∧ v.values = List.zipWith op a.values b.values := by
  obtain ⟨es, hcombine, hvalues⟩ := combine_ok op a.exponents b.exponents h
  refine ⟨⟨es⟩, ?_, hvalues⟩
  rw [zip, if_pos harity, hcombine]
  rfl

/-- Two dimensions of one arity are not combined when an integer does not fit. -/
theorem zip_overflow (op : Int → Int → Int) (a b : Dimension) (harity : a.arity = b.arity)
    (h : ¬ ∀ n ∈ List.zipWith op a.values b.values, Fits n) :
    zip op a b = .error .overflow := by
  rw [zip, if_pos harity, combine_overflow op a.exponents b.exponents h]
  rfl

/-- Exponents are multiplied when all products fit. -/
theorem powers_ok (k : Int32) (es : List Int32)
    (h : ∀ n ∈ es.map Int32.toInt, Fits (n * k.toInt)) :
    ∃ fs, powers k es = .ok fs ∧
      fs.map Int32.toInt = (es.map Int32.toInt).map (· * k.toInt) := by
  induction es with
  | nil => exact ⟨[], rfl, rfl⟩
  | cons e es ih =>
    simp only [List.map_cons, List.forall_mem_cons] at h
    obtain ⟨f, hsome, hvalue⟩ := exists_exponent _ h.1
    obtain ⟨fs, hrest, hvalues⟩ := ih h.2
    refine ⟨f :: fs, ?_, ?_⟩
    · simp only [powers, hsome, hrest, Except.map]
    · simp only [List.map_cons, hvalue, hvalues]

/-- Exponents are not multiplied when a product does not fit. -/
theorem powers_overflow (k : Int32) (es : List Int32)
    (h : ¬ ∀ n ∈ es.map Int32.toInt, Fits (n * k.toInt)) : powers k es = .error .overflow := by
  induction es with
  | nil => simp at h
  | cons e es ih =>
    simp only [List.map_cons, List.forall_mem_cons, not_and] at h
    by_cases hfits : Fits (e.toInt * k.toInt)
    · obtain ⟨f, hsome, -⟩ := exists_exponent _ hfits
      simp only [powers, hsome, ih (h hfits), Except.map]
    · simp only [powers, exponent?_eq_none _ hfits]

/-- A power exists when all products fit. -/
theorem power_ok (d : Dimension) (k : Int32) (h : ∀ n ∈ d.values, Fits (n * k.toInt)) :
    ∃ v, d.power k = .ok v ∧ v.values = d.values.map (· * k.toInt) := by
  obtain ⟨es, hpowers, hvalues⟩ := powers_ok k d.exponents h
  refine ⟨⟨es⟩, ?_, hvalues⟩
  rw [power, hpowers]
  rfl

/-- A power does not exist when a product does not fit. -/
theorem power_overflow (d : Dimension) (k : Int32) (h : ¬ ∀ n ∈ d.values, Fits (n * k.toInt)) :
    d.power k = .error .overflow := by
  rw [power, powers_overflow k d.exponents h]
  rfl

/-- Exponents are divided when the divisor divides all of them and all quotients fit. -/
theorem roots_ok (whole : Dimension) (k : Int32) (position : Nat) (es : List Int32)
    (hdvd : ∀ n ∈ es.map Int32.toInt, k.toInt ∣ n)
    (hfits : ∀ n ∈ es.map Int32.toInt, Fits (n / k.toInt)) :
    ∃ fs, roots whole k position es = .ok fs ∧
      fs.map Int32.toInt = (es.map Int32.toInt).map (· / k.toInt) := by
  induction es generalizing position with
  | nil => exact ⟨[], rfl, rfl⟩
  | cons e es ih =>
    simp only [List.map_cons, List.forall_mem_cons] at hdvd hfits
    obtain ⟨f, hsome, hvalue⟩ := exists_exponent _ hfits.1
    obtain ⟨fs, hrest, hvalues⟩ := ih (position + 1) hdvd.2 hfits.2
    refine ⟨f :: fs, ?_, ?_⟩
    · rw [roots, if_neg (not_not.mpr (Int.dvd_iff_tmod_eq_zero.mp hdvd.1)),
        Int.tdiv_eq_ediv_of_dvd hdvd.1, hsome, hrest]
      rfl
    · simp only [List.map_cons, hvalue, hvalues]

/-- Exponents are not divided when the divisor divides all of them and a quotient does not fit. -/
theorem roots_overflow (whole : Dimension) (k : Int32) (position : Nat) (es : List Int32)
    (hdvd : ∀ n ∈ es.map Int32.toInt, k.toInt ∣ n)
    (hfits : ¬ ∀ n ∈ es.map Int32.toInt, Fits (n / k.toInt)) :
    roots whole k position es = .error .overflow := by
  induction es generalizing position with
  | nil => simp at hfits
  | cons e es ih =>
    simp only [List.map_cons, List.forall_mem_cons, not_and] at hdvd hfits
    rw [roots, if_neg (not_not.mpr (Int.dvd_iff_tmod_eq_zero.mp hdvd.1)),
      Int.tdiv_eq_ediv_of_dvd hdvd.1]
    by_cases hfirst : Fits (e.toInt / k.toInt)
    · obtain ⟨f, hsome, -⟩ := exists_exponent _ hfirst
      simp only [hsome, ih (position + 1) hdvd.2 (hfits hfirst), Except.map]
    · simp only [exponent?_eq_none _ hfirst]

/-- The first exponent that the divisor does not divide is reported. -/
theorem roots_notDivisible (whole : Dimension) (k : Int32) (hk : k.toInt ≠ -1) (position : Nat)
    (before : List Int32) (e : Int32) (after : List Int32)
    (hbefore : ∀ n ∈ before.map Int32.toInt, k.toInt ∣ n) (he : ¬ k.toInt ∣ e.toInt) :
    roots whole k position (before ++ e :: after) =
      .error (.notDivisible whole k (position + before.length)) := by
  induction before generalizing position with
  | nil => rw [List.nil_append, roots, if_pos (mt Int.dvd_iff_tmod_eq_zero.mpr he)]; rfl
  | cons b before ih =>
    simp only [List.map_cons, List.forall_mem_cons] at hbefore
    obtain ⟨f, hsome, -⟩ := exists_exponent _ (fits_tdiv _ _ (fits_toInt b) hk)
    rw [List.cons_append, roots, if_neg (not_not.mpr (Int.dvd_iff_tmod_eq_zero.mp hbefore.1)),
      hsome, ih (position + 1) hbefore.2, List.length_cons, Nat.add_right_comm]
    rfl

/-- A root exists when the divisor divides all exponents and all quotients fit. -/
theorem root_ok (d : Dimension) (k : Int32) (hk : k ≠ 0) (hdvd : ∀ n ∈ d.values, k.toInt ∣ n)
    (hfits : ∀ n ∈ d.values, Fits (n / k.toInt)) :
    ∃ v, d.root k = .ok v ∧ v.values = d.values.map (· / k.toInt) := by
  obtain ⟨es, hroots, hvalues⟩ := roots_ok d k 0 d.exponents hdvd hfits
  refine ⟨⟨es⟩, ?_, hvalues⟩
  rw [root, if_neg hk, hroots]
  rfl

/-- A root does not exist when the divisor divides all exponents and a quotient does not fit. -/
theorem root_overflow (d : Dimension) (k : Int32) (hk : k ≠ 0)
    (hdvd : ∀ n ∈ d.values, k.toInt ∣ n) (hfits : ¬ ∀ n ∈ d.values, Fits (n / k.toInt)) :
    d.root k = .error .overflow := by
  rw [root, if_neg hk, roots_overflow d k 0 d.exponents hdvd hfits]
  rfl

/-- A list of exponents that a divisor does not divide has a first exponent that it does not
divide. -/
theorem exists_first_not_dvd (k : Int) (es : List Int32)
    (h : ¬ ∀ n ∈ es.map Int32.toInt, k ∣ n) :
    ∃ before e after, es = before ++ e :: after ∧
      (∀ n ∈ before.map Int32.toInt, k ∣ n) ∧ ¬ k ∣ e.toInt := by
  induction es with
  | nil => simp at h
  | cons e es ih =>
    simp only [List.map_cons, List.forall_mem_cons, not_and] at h
    by_cases he : k ∣ e.toInt
    · obtain ⟨before, f, after, rfl, hbefore, hf⟩ := ih (h he)
      refine ⟨e :: before, f, after, rfl, ?_, hf⟩
      rw [List.map_cons, List.forall_mem_cons]
      exact ⟨he, hbefore⟩
    · exact ⟨[], e, es, rfl, by simp, he⟩

/-- A root does not exist when the divisor does not divide an exponent, and the first such exponent
is reported. -/
theorem root_notDivisible (d : Dimension) (k : Int32) (hk : k ≠ 0)
    (hdvd : ¬ ∀ n ∈ d.values, k.toInt ∣ n) :
    ∃ before e after, d.exponents = before ++ e :: after ∧
      (∀ n ∈ before.map Int32.toInt, k.toInt ∣ n) ∧ ¬ k.toInt ∣ e.toInt ∧
      d.root k = .error (.notDivisible d k before.length) := by
  obtain ⟨before, e, after, heq, hbefore, he⟩ := exists_first_not_dvd k.toInt d.exponents hdvd
  have hunit : k.toInt ≠ -1 := by
    intro hunit
    rw [hunit] at he
    exact he (Int.neg_dvd.mpr (Int.one_dvd _))
  refine ⟨before, e, after, heq, hbefore, he, ?_⟩
  rw [root, if_neg hk, heq, roots_notDivisible d k hunit 0 before e after hbefore he, Nat.zero_add]
  rfl

end Dimension

end UnitSystems
