import UnitSystems.Proofs.Dimension.Exact

/-!
# Operators position by position

What an operator does to two exponents, as integers of any size. An operator refuses dimensions
exactly when its rule gives nothing at some position; when it has a result, the result holds what
the rule gives at every position. The range of exponents is no matter of the rule: an overflow is
no refusal.
-/

namespace UnitSystems

/-- Errors about the operands of an operator, in contrast to the range of the result. -/
def DimensionError.IsRefusal : DimensionError → Prop
  | incompatible _ _ => True
  | notDivisible _ _ _ => True
  | zeroDivisor => True
  | _ => False

/-- An operator that refuses nothing. -/
def Accepts (outcome : Except DimensionError Dimension) : Prop :=
  ∀ error, outcome = .error error → ¬ error.IsRefusal

/-- An operator follows a rule when it refuses exactly the dimensions for which the rule gives
nothing somewhere, and its result holds what the rule gives. -/
structure Follows (given : List (Option Int)) (outcome : Except DimensionError Dimension) : Prop where
  accepts : (∀ o ∈ given, o.isSome = true) ↔ Accepts outcome
  result : ∀ v, outcome = .ok v → given = v.values.map some

/-- A result follows a rule that gives all of it. -/
theorem follows_ok (given : List (Option Int)) (d : Dimension) (h : given = d.values.map some) :
    Follows given (.ok d) := by
  refine ⟨⟨fun _ error heq => by contradiction, fun _ => ?_⟩, fun v hv => ?_⟩
  · rw [h, List.forall_mem_map]
    exact fun _ _ => rfl
  · obtain rfl := Except.ok.inj hv
    exact h

/-- An overflow follows a rule that gives something everywhere: it is no refusal. -/
theorem follows_overflow (given : List (Option Int)) (h : ∀ o ∈ given, o.isSome = true) :
    Follows given (.error .overflow) := by
  refine ⟨⟨fun _ error heq => ?_, fun _ => h⟩, fun v hv => by contradiction⟩
  obtain rfl := Except.error.inj heq
  exact id

/-- A refusal follows a rule that gives nothing somewhere. -/
theorem follows_refusal (given : List (Option Int)) (error : DimensionError)
    (herror : error.IsRefusal) (h : ¬ ∀ o ∈ given, o.isSome = true) :
    Follows given (.error error) :=
  ⟨⟨fun hall => absurd hall h, fun haccepts => absurd herror (haccepts error rfl)⟩,
    fun v hv => by contradiction⟩

/-- The rule of an operator on two exponents. -/
def CombinationOperator.rule : CombinationOperator → Int → Int → Option Int
  | keep, m, n => if m = n then some m else none
  | add, m, n => some (m + n)
  | sub, m, n => some (m - n)

/-- The rule of an operator on an exponent and an integer. -/
def ScalarOperator.rule : ScalarOperator → Int → Int → Option Int
  | mul, m, k => some (m * k)
  | div, m, k => if k ≠ 0 ∧ k ∣ m then some (m / k) else none

/-- Two lists of one length agree at every position exactly when they are equal. -/
theorem forall_zipWith_keep_iff (ms ns : List Int) (hlength : ms.length = ns.length) :
    (∀ o ∈ List.zipWith CombinationOperator.keep.rule ms ns, o.isSome = true) ↔ ms = ns := by
  induction ms generalizing ns with
  | nil =>
    cases ns with
    | nil => simp
    | cons n ns => simp at hlength
  | cons m ms ih =>
    cases ns with
    | nil => simp at hlength
    | cons n ns =>
      rw [List.length_cons, List.length_cons, Nat.add_right_cancel_iff] at hlength
      rw [List.zipWith_cons_cons, List.forall_mem_cons, ih ns hlength, List.cons.injEq]
      by_cases h : m = n <;> simp [CombinationOperator.rule, h]

/-- A list agrees with itself at every position. -/
theorem zipWith_keep_self (ms : List Int) :
    List.zipWith CombinationOperator.keep.rule ms ms = ms.map some := by
  rw [List.zipWith_self]
  simp [CombinationOperator.rule]

/-- Sums and differences follow a rule that gives something everywhere. -/
theorem follows_zip (op : Int → Int → Int) (a b : Dimension) (harity : a.arity = b.arity) :
    Follows (List.zipWith (fun m n => some (op m n)) a.values b.values) (Dimension.zip op a b) := by
  rw [← List.map_zipWith]
  by_cases hfits : ∀ n ∈ List.zipWith op a.values b.values, Fits n
  · obtain ⟨w, hw, hvalues⟩ := Dimension.zip_ok op a b harity hfits
    rw [hw, ← hvalues]
    exact follows_ok _ w rfl
  · rw [Dimension.zip_overflow op a b harity hfits]
    apply follows_overflow
    rw [List.forall_mem_map]
    exact fun _ _ => rfl

/-- An operator on two dimensions follows its rule at every position. -/
theorem CombinationOperator.apply_rule (op : CombinationOperator) (a b : Dimension)
    (harity : a.arity = b.arity) :
    Follows (List.zipWith op.rule a.values b.values) (op.apply a b) := by
  cases op with
  | keep =>
    have hlength : a.values.length = b.values.length := by
      rw [a.length_values, b.length_values, harity]
    by_cases hab : a = b
    · subst hab
      have happly : keep.apply a a = .ok a := by simp [apply, Dimension.keep]
      rw [happly]
      exact follows_ok _ a (zipWith_keep_self a.values)
    · have happly : keep.apply a b = .error (.incompatible a b) := by
        simp [apply, Dimension.keep, harity, hab]
      rw [happly]
      refine follows_refusal _ _ trivial fun h => hab ?_
      exact Dimension.values_injective a b ((forall_zipWith_keep_iff _ _ hlength).mp h)
  | add => exact follows_zip (· + ·) a b harity
  | sub => exact follows_zip (· - ·) a b harity

/-- Powers follow their rule at every position. -/
theorem follows_power (a : Dimension) (k : Int32) :
    Follows (a.values.map (ScalarOperator.mul.rule · k.toInt)) (a.power k) := by
  by_cases hfits : ∀ n ∈ a.values, Fits (n * k.toInt)
  · obtain ⟨w, hw, hvalues⟩ := Dimension.power_ok a k hfits
    rw [hw]
    apply follows_ok
    rw [hvalues, List.map_map]
    rfl
  · rw [Dimension.power_overflow a k hfits]
    apply follows_overflow
    rw [List.forall_mem_map]
    exact fun _ _ => rfl

/-- The rule of roots gives something for all multiples of a divisor other than zero. -/
theorem forall_map_div_iff (ms : List Int) (hne : ms ≠ []) (k : Int) :
    (∀ o ∈ ms.map (ScalarOperator.div.rule · k), o.isSome = true) ↔
      k ≠ 0 ∧ ∀ n ∈ ms, k ∣ n := by
  have hrule (n : Int) : (ScalarOperator.div.rule n k).isSome = true ↔ k ≠ 0 ∧ k ∣ n := by
    by_cases h : k ≠ 0 ∧ k ∣ n <;> simp [ScalarOperator.rule, h]
  obtain ⟨first, others, rfl⟩ := List.exists_cons_of_ne_nil hne
  simp only [List.forall_mem_map, hrule]
  constructor
  · intro h
    exact ⟨(h first List.mem_cons_self).1, fun n hn => (h n hn).2⟩
  · exact fun h n hn => ⟨h.1, h.2 n hn⟩

/-- Roots follow their rule at every position of a dimension of at least one base unit. -/
theorem follows_root (a : Dimension) (ha : a.values ≠ []) (k : Int32) :
    Follows (a.values.map (ScalarOperator.div.rule · k.toInt)) (a.root k) := by
  have hsome := forall_map_div_iff a.values ha k.toInt
  by_cases hk : k = 0
  · rw [Dimension.root, if_pos hk]
    refine follows_refusal _ _ trivial fun h => ?_
    exact (hsome.mp h).1 ((toInt_eq_zero_iff k).mpr hk)
  · have hne : k.toInt ≠ 0 := mt (toInt_eq_zero_iff k).mp hk
    by_cases hdvd : ∀ n ∈ a.values, k.toInt ∣ n
    · by_cases hfits : ∀ n ∈ a.values, Fits (n / k.toInt)
      · obtain ⟨w, hw, hvalues⟩ := Dimension.root_ok a k hk hdvd hfits
        rw [hw]
        apply follows_ok
        rw [hvalues, List.map_map]
        exact List.map_congr_left fun n hn => if_pos ⟨hne, hdvd n hn⟩
      · rw [Dimension.root_overflow a k hk hdvd hfits]
        exact follows_overflow _ (hsome.mpr ⟨hne, hdvd⟩)
    · obtain ⟨_, _, _, -, -, -, hroot⟩ := Dimension.root_notDivisible a k hk hdvd
      rw [hroot]
      exact follows_refusal _ _ trivial fun h => hdvd (hsome.mp h).2

/-- An operator that scales a dimension of at least one base unit follows its rule at every
position. -/
theorem ScalarOperator.apply_rule (op : ScalarOperator) (a : Dimension) (ha : a.values ≠ [])
    (k : Int32) : Follows (a.values.map (op.rule · k.toInt)) (op.apply a k) := by
  cases op with
  | mul => exact follows_power a k
  | div => exact follows_root a ha k

end UnitSystems
