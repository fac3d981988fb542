import Mathlib.Data.List.Zip
import UnitSystems.Proofs.Dimension.Exact

/-!
# Dimensions as a partial group

Sums and differences of dimensions are those of their exact integers, as far as these fit. So the
laws of integers hold for dimensions wherever both sides have a result: a difference undoes a sum
and a sum undoes a difference, sums may be taken in any order, and subtracting is adding the
reciprocal. The outcome of an operation, errors included, depends on the numbers of base units and
the exact integers alone.
-/

namespace UnitSystems.Dimension

/-- An operation between two dimensions of one arity whose result holds the exact integers, when all
of them fit. -/
structure IsExact (op : Int → Int → Int) (a b : Dimension)
    (outcome : Except DimensionError Dimension) : Prop where
  /-- There is a result precisely when the arities agree and every exact integer fits. -/
  defined : (∃ v, outcome = .ok v) ↔
    a.arity = b.arity ∧ ∀ n ∈ List.zipWith op a.values b.values, Fits n
  /-- The result is the dimension of the exact integers. -/
  result : ∀ v, outcome = .ok v ↔ a.arity = b.arity ∧ v.values = List.zipWith op a.values b.values
  /-- The operation fails for different arities, and otherwise when an integer does not fit. -/
  failure : ∀ error, outcome = .error error ↔
    (a.arity ≠ b.arity ∧ error = .arityMismatch a.arity b.arity) ∨
      (a.arity = b.arity ∧ (¬ ∀ n ∈ List.zipWith op a.values b.values, Fits n) ∧
        error = .overflow)

section

variable (op : Int → Int → Int) (a b : Dimension)

/-- Two dimensions of different arities are not combined. -/
theorem zip_arityMismatch (harity : a.arity ≠ b.arity) :
    zip op a b = .error (.arityMismatch a.arity b.arity) :=
  if_neg harity

/-- What is done position by position is done exactly. -/
theorem isExact_zip : IsExact op a b (zip op a b) := by
  by_cases harity : a.arity = b.arity
  · by_cases hfits : ∀ n ∈ List.zipWith op a.values b.values, Fits n
    · obtain ⟨v, hv, hvalues⟩ := zip_ok op a b harity hfits
      rw [hv]
      refine ⟨iff_of_true ⟨v, rfl⟩ ⟨harity, hfits⟩, fun w => ?_, fun error => ?_⟩
      · rw [Except.ok.injEq, ← hvalues, and_iff_right harity]
        exact ⟨fun heq => heq ▸ rfl, fun h => (values_injective w v h).symm⟩
      · exact iff_of_false nofun (Or.rec (fun h => h.1 harity) fun h => h.2.1 hfits)
    · rw [zip_overflow op a b harity hfits]
      refine ⟨iff_of_false nofun fun h => hfits h.2, fun w => iff_of_false nofun fun h => ?_,
        fun error => ?_⟩
      · exact hfits (h.2 ▸ w.fits_of_mem_values)
      · rw [Except.error.injEq, and_iff_right harity, and_iff_right hfits, eq_comm]
        exact (or_iff_right fun h => h.1 harity).symm
  · rw [zip_arityMismatch op a b harity]
    refine ⟨iff_of_false nofun fun h => harity h.1, fun w => iff_of_false nofun fun h => harity h.1,
      fun error => ?_⟩
    rw [Except.error.injEq, and_iff_right harity, eq_comm]
    exact (or_iff_left fun h => harity h.1).symm

/-- A result holds as many integers as each operand. -/
theorem arity_of_zip {v : Dimension} (h : zip op a b = .ok v) : v.arity = b.arity := by
  obtain ⟨harity, hvalues⟩ := ((isExact_zip op a b).result v).mp h
  rw [← v.length_values, hvalues, List.length_zipWith, a.length_values, b.length_values, harity,
    Nat.min_self]

/-- The outcome depends on the arities and on the exact integers alone. -/
theorem zip_eq_zip (op' : Int → Int → Int) (a' b' : Dimension) (ha : a.arity = a'.arity)
    (hb : b.arity = b'.arity)
    (h : List.zipWith op a.values b.values = List.zipWith op' a'.values b'.values) :
    zip op a b = zip op' a' b' := by
  have hexact := isExact_zip op' a' b'
  cases hzip : zip op a b with
  | ok v =>
    refine ((hexact.result v).mpr ?_).symm
    rw [← ha, ← hb, ← h]
    exact ((isExact_zip op a b).result v).mp hzip
  | error error =>
    refine ((hexact.failure error).mpr ?_).symm
    rw [← ha, ← hb, ← h]
    exact ((isExact_zip op a b).failure error).mp hzip

/-- An operation that another one undoes for integers is undone for lists of them. -/
theorem zipWith_undo (op undo : Int → Int → Int) (hundo : ∀ m n, undo (op m n) n = m)
    (ms ns : List Int) (hlength : ms.length = ns.length) :
    List.zipWith undo (List.zipWith op ms ns) ns = ms := by
  refine List.ext_getElem (by simp [hlength]) fun i _ _ => ?_
  rw [List.getElem_zipWith, List.getElem_zipWith, hundo]

/-- An operation that another one undoes for integers is undone for dimensions. -/
theorem zip_undo (undo : Int → Int → Int) (hundo : ∀ m n, undo (op m n) n = m) {s : Dimension}
    (h : zip op a b = .ok s) : zip undo s b = .ok a := by
  have hs := arity_of_zip op a b h
  obtain ⟨harity, hvalues⟩ := ((isExact_zip op a b).result s).mp h
  refine ((isExact_zip undo s b).result a).mpr ⟨hs, ?_⟩
  rw [hvalues, zipWith_undo op undo hundo _ _ (by rw [a.length_values, b.length_values, harity])]

end

section

variable (a b c : Dimension)

/-- A difference undoes a sum. -/
theorem add_eq_ok_iff_sub (s : Dimension) : a.add b = .ok s ↔ s.sub b = .ok a :=
  ⟨zip_undo _ a b _ Int.add_sub_cancel, zip_undo _ s b _ Int.sub_add_cancel⟩

/-- The summands of a sum may be exchanged. -/
theorem add_comm (s : Dimension) (h : a.add b = .ok s) : b.add a = .ok s := by
  obtain ⟨harity, hvalues⟩ := ((isExact_zip _ a b).result s).mp h
  refine ((isExact_zip _ b a).result s).mpr ⟨harity.symm, ?_⟩
  rw [hvalues, List.zipWith_comm]
  exact congrArg (fun op => List.zipWith op _ _) (funext₂ fun m n => Int.add_comm n m)

/-- A sum of three may be begun at either end. -/
theorem add_assoc {ab bc : Dimension} (hab : a.add b = .ok ab) (hbc : b.add c = .ok bc) :
    ab.add c = a.add bc := by
  have harity := (((isExact_zip _ a b).result ab).mp hab).1
  refine zip_eq_zip _ ab c _ a bc ((arity_of_zip _ a b hab).trans harity.symm)
    (arity_of_zip _ b c hbc).symm ?_
  rw [(((isExact_zip _ a b).result ab).mp hab).2, (((isExact_zip _ b c).result bc).mp hbc).2,
    List.zipWith_zipWith_left, List.zipWith_zipWith_right]
  exact congrArg (fun op => List.zipWith3 op _ _ _) (funext₃ fun m n k => Int.add_assoc m n k)

/-- The reciprocal has the negated integers. -/
theorem values_recip {r : Dimension} (h : b.recip = .ok r) : r.values = b.values.map (-·) := by
  have hone : (-1 : Int32).toInt = -1 := by decide
  by_cases hfits : ∀ n ∈ b.values, Fits (n * (-1 : Int32).toInt)
  · obtain ⟨v, hv, hvalues⟩ := b.power_ok (-1) hfits
    obtain rfl := Except.ok.inj (hv.symm.trans h)
    rw [hvalues, hone]
    exact List.map_congr_left fun n _ => Int.mul_neg_one n
  · have herror := b.power_overflow (-1) hfits
    rw [recip, herror] at h
    contradiction

/-- Subtracting a dimension is adding its reciprocal. -/
theorem sub_eq_add_recip {r : Dimension} (h : b.recip = .ok r) : a.sub b = a.add r := by
  have hvalues := b.values_recip h
  have harity : b.arity = r.arity := by
    rw [← b.length_values, ← r.length_values, hvalues, List.length_map]
  refine zip_eq_zip _ a b _ a r rfl harity ?_
  rw [hvalues, List.zipWith_map_right]
  exact congrArg (fun op => List.zipWith op _ _) (funext₂ fun m n => Int.sub_eq_add_neg)

/-- Dimensions without exponents are those whose integers are zero. -/
theorem isDimensionless_iff : b.isDimensionless = true ↔ ∀ n ∈ b.values, n = 0 := by
  simp only [isDimensionless, List.all_eq_true, beq_iff_eq, values, List.forall_mem_map,
    toInt_eq_zero_iff]

/-- Dimensionless summands are the neutral ones. -/
theorem add_eq_self_iff : a.add b = .ok a ↔ a.arity = b.arity ∧ b.isDimensionless = true := by
  rw [isDimensionless_iff, add, (isExact_zip _ a b).result a]
  refine and_congr_right fun harity => ?_
  have hlength : a.values.length = b.values.length := by
    rw [a.length_values, b.length_values, harity]
  constructor
  · intro h n hn
    obtain ⟨i, hi, rfl⟩ := List.getElem_of_mem hn
    have hsum := List.getElem_of_eq h (hlength ▸ hi)
    rw [List.getElem_zipWith] at hsum
    omega
  · intro h
    refine List.ext_getElem (by simp [hlength]) fun i _ hi => ?_
    rw [List.length_zipWith, hlength, Nat.min_self] at hi
    rw [List.getElem_zipWith, h _ (List.getElem_mem hi), Int.add_zero]

/-- A dimension and its reciprocal make up a plain number. -/
theorem exists_add_recip {r : Dimension} (h : b.recip = .ok r) :
    ∃ z, b.add r = .ok z ∧ z.isDimensionless = true := by
  have hself : (dimensionless b.arity).add b = .ok b := by
    refine add_comm _ _ _ ((b.add_eq_self_iff _).mpr ⟨?_, ?_⟩)
    · rw [← length_values (dimensionless b.arity), values_dimensionless, List.length_replicate]
    · simp [isDimensionless_iff, values_dimensionless]
  refine ⟨dimensionless b.arity, ?_, by simp [isDimensionless_iff, values_dimensionless]⟩
  rw [← b.sub_eq_add_recip b h]
  exact (add_eq_ok_iff_sub _ _ _).mp hself

/-- Two dimensions are kept when they are equal, as what they both are. -/
theorem keep_eq_ok_iff (v : Dimension) : a.keep b = .ok v ↔ a = b ∧ v = a := by
  unfold keep
  split
  · split
    · next heq => simp [heq, eq_comm]
    · next hne => simp [hne]
  · next harity =>
    refine iff_of_false (by simp) fun h => harity (h.1 ▸ rfl)

end

/-- Dimensions are a partial group. Sums and differences are exact, with an error for dimensions of
different arities and an overflow as the only other one. Sums and differences undo one another,
summands may be exchanged and regrouped, a difference is the sum with the reciprocal, errors
included, dimensionless summands are neutral, and exactly equal dimensions are kept. -/
theorem partial_group (a b c : Dimension) :
    IsExact (· + ·) a b (a.add b) ∧ IsExact (· - ·) a b (a.sub b) ∧
    (∀ s, a.add b = .ok s → b.add a = .ok s) ∧
    (∀ s, a.add b = .ok s ↔ s.sub b = .ok a) ∧
    (∀ s, a.sub b = .ok s ↔ s.add b = .ok a) ∧
    (∀ ab bc, a.add b = .ok ab → b.add c = .ok bc → ab.add c = a.add bc) ∧
    (∀ r, b.recip = .ok r → a.sub b = a.add r ∧ ∃ z, b.add r = .ok z ∧ z.isDimensionless = true) ∧
    (a.add b = .ok a ↔ a.arity = b.arity ∧ b.isDimensionless = true) ∧
    ∀ v, a.keep b = .ok v ↔ a = b ∧ v = a :=
  ⟨isExact_zip _ a b, isExact_zip _ a b, add_comm a b, add_eq_ok_iff_sub a b,
    fun s => (add_eq_ok_iff_sub s b a).symm, fun _ _ hab hbc => add_assoc a b c hab hbc,
    fun _ hr => ⟨sub_eq_add_recip a b hr, exists_add_recip b hr⟩, add_eq_self_iff a b,
    keep_eq_ok_iff a b⟩

/-- Near the ends of the range a sum and its undoing exist, the regrouped sum and the sum with the
reciprocal overflow on both sides, and the smallest exponent has no reciprocal but can be
subtracted. -/
theorem partial_group_extremes :
    let a : Dimension := ⟨[2147483647, 3]⟩
    let b : Dimension := ⟨[-2147483647, 4]⟩
    let s : Dimension := ⟨[0, 7]⟩
    let r : Dimension := ⟨[2147483647, -4]⟩
    let smallest : Dimension := ⟨[-2147483648, 0]⟩
    (a.add b = .ok s ∧ b.add a = .ok s ∧ s.sub b = .ok a) ∧
      (b.add a = .ok s ∧ s.add smallest = b.add ⟨[-1, 3]⟩) ∧
      (b.recip = .ok r ∧ a.sub b = .error .overflow ∧ a.add r = .error .overflow) ∧
      smallest.recip = .error .overflow ∧ b.sub smallest = .ok ⟨[1, 4]⟩ := by
  intro a b s r smallest
  have hadd : a.add b = .ok s := by rfl
  have hrecip : b.recip = .ok r := by rfl
  have hsub : a.sub b = .error .overflow := by rfl
  obtain ⟨-, -, hcomm, hundo, -, -, hreciprocal, -⟩ := partial_group a b smallest
  obtain ⟨-, -, -, -, -, hassoc, -⟩ := partial_group b a smallest
  exact ⟨⟨hadd, hcomm s hadd, (hundo s).mp hadd⟩,
    ⟨hcomm s hadd, hassoc s ⟨[-1, 3]⟩ (hcomm s hadd) rfl⟩,
    ⟨hrecip, hsub, (hreciprocal r hrecip).1 ▸ hsub⟩, rfl, rfl⟩

end UnitSystems.Dimension
