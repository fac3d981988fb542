import Mathlib.Data.List.Infix
import UnitSystems.Proofs.Dimension.Display
import UnitSystems.Proofs.Expression.Value

/-!
# Refining the allowed root

A system is refined by a multiple of its root. What a factor contributes is then multiplied by the
same number, because a denominator that divides the power of the root divides its multiple too. So
an expression keeps its value up to this number, as long as the integers on the way fit, and the
value is shown by the same text.
-/

namespace UnitSystems

/-- A system with the base units of another one and a multiple of its root. -/
structure Specification.Refines (fine s : Specification) (k : Nat) : Prop where
  /-- The base units are the same. -/
  baseUnits : fine.baseUnits = s.baseUnits
  /-- The root is the multiple. -/
  root : fine.allowedRoot.toNat = k * s.allowedRoot.toNat

/-- The names of the base units are the same in a refined system. -/
theorem Specification.Refines.identifiers {fine s : Specification} {k : Nat}
    (h : fine.Refines s k) : fine.identifiers = s.identifiers := by
  rw [Specification.identifiers, Specification.identifiers, h.baseUnits]

/-- A refined system has as many base units. -/
theorem Specification.Refines.arity {fine s : Specification} {k : Nat}
    (h : fine.Refines s k) : fine.arity = s.arity := by
  rw [Specification.arity, Specification.arity, h.baseUnits]

namespace Expression

/-- Expressions in which no integer on the way to the value leaves the range: neither the root,
nor its product with a numerator, nor the sum of what the first factors contribute to a unit. -/
structure FitsThroughout (s : Specification) (e : Expression) : Prop where
  /-- The root fits where a base unit occurs. -/
  root : ∀ term ∈ e, unitName? term.2 ≠ none → Fits s.allowedRoot.toNat
  /-- The root raised to a numerator fits. -/
  power : ∀ term ∈ e, unitName? term.2 ≠ none → Fits (scaled s term.2)
  /-- The sums of the first factors fit, however many. -/
  sums : ∀ before ∈ e.inits, ∀ unit ∈ s.identifiers, Fits (total s unit before)

instance (s : Specification) (e : Expression) : Decidable (FitsThroughout s e) :=
  decidable_of_iff
    ((∀ term ∈ e, unitName? term.2 ≠ none → Fits s.allowedRoot.toNat) ∧
      (∀ term ∈ e, unitName? term.2 ≠ none → Fits (scaled s term.2)) ∧
      ∀ before ∈ e.inits, ∀ unit ∈ s.identifiers, Fits (total s unit before))
    ⟨fun h => ⟨h.1, h.2.1, h.2.2⟩, fun h => ⟨h.root, h.power, h.sums⟩⟩

/-- Every denominator divides the power of the root that it is applied to. -/
def Divides (s : Specification) (e : Expression) : Prop :=
  ∀ term ∈ e, unitName? term.2 ≠ none → term.2.denominator.toInt ∣ scaled s term.2

/-- An expression has a value exactly when its units are known, its denominators divide and no
integer leaves the range. -/
theorem hasValue_iff (s : Specification) (e : Expression) : HasValue s e ↔
    (∀ term ∈ e, ∀ name ∈ unitName? term.2, name ∈ s.identifiers) ∧ Divides s e ∧
      FitsThroughout s e := by
  have hsums : (∀ before after, e = before ++ after →
        ∀ unit ∈ s.identifiers, Fits (total s unit before)) ↔
      ∀ before ∈ e.inits, ∀ unit ∈ s.identifiers, Fits (total s unit before) := by
    constructor
    · intro h before hbefore
      obtain ⟨after, hafter⟩ := (List.mem_inits before e).mp hbefore
      exact h before after hafter.symm
    · intro h before after heq
      apply h before
      rw [List.mem_inits, heq]
      exact List.prefix_append before after
  constructor
  · intro h
    exact ⟨h.known, h.divides, h.root, h.power, hsums.mp h.sums⟩
  · intro h
    obtain ⟨hknown, hdivides, hfits⟩ := h
    exact ⟨hknown, hfits.root, hfits.power, hdivides, hsums.mpr hfits.sums⟩

variable {fine s : Specification} {k : Nat}

/-- The multiple of a contribution has its sign. -/
theorem signed_mul (sign : Sign) (k n : Int) : signed sign (k * n) = k * signed sign n :=
  match sign with
  | .times => rfl
  | .over => (Int.mul_neg k n).symm

/-- A power of the root is multiplied in a refined system. -/
theorem scaled_refined (h : fine.Refines s k) (factor : Factor) :
    scaled fine factor = k * scaled s factor := by
  rw [scaled, scaled, h.root, Int.natCast_mul, Int.mul_assoc]

/-- A denominator that divides goes on to divide in a refined system. -/
theorem divides_refined (h : fine.Refines s k) (e : Expression) (hdivides : Divides s e) :
    Divides fine e := by
  intro term hterm hunit
  rw [scaled_refined h]
  exact Int.dvd_mul_of_dvd_right (hdivides term hterm hunit)

/-- What a factor contributes is multiplied in a refined system. -/
theorem share_refined (h : fine.Refines s k) (factor : Factor) (unit : String)
    (hdivides : unitName? factor ≠ none → factor.denominator.toInt ∣ scaled s factor) :
    share fine factor unit = k * share s factor unit := by
  by_cases hname : unitName? factor = some unit
  · have hunit : unitName? factor ≠ none := by
      rw [hname]
      exact Option.some_ne_none unit
    rw [share, share, if_pos hname, if_pos hname, scaled_refined h]
    exact Int.mul_ediv_assoc k (hdivides hunit)
  · rw [share, share, if_neg hname, if_neg hname, Int.mul_zero]

/-- The sum of the contributions to a unit is multiplied in a refined system. -/
theorem total_refined (h : fine.Refines s k) (unit : String) (e : Expression)
    (hdivides : Divides s e) : total fine unit e = k * total s unit e := by
  induction e with
  | nil => rw [total, total, Int.mul_zero]
  | cons term rest ih =>
    obtain ⟨sign, factor⟩ := term
    obtain ⟨hfirst, hrest⟩ := List.forall_mem_cons.mp hdivides
    calc total fine unit ((sign, factor) :: rest)
        = signed sign (share fine factor unit) + total fine unit rest := rfl
      _ = signed sign (k * share s factor unit) + k * total s unit rest := by
          rw [share_refined h factor unit hfirst, ih hrest]
      _ = k * signed sign (share s factor unit) + k * total s unit rest := by rw [signed_mul]
      _ = k * total s unit ((sign, factor) :: rest) := (Int.mul_add _ _ _).symm

/-- An expression with a value has one in a refined system, unless an integer leaves the range. -/
theorem hasValue_refined (h : fine.Refines s k) (e : Expression) (hvalue : HasValue s e)
    (hfits : FitsThroughout fine e) : HasValue fine e := by
  obtain ⟨hknown, hdivides, -⟩ := (hasValue_iff s e).mp hvalue
  apply (hasValue_iff fine e).mpr
  refine ⟨?_, divides_refined h e hdivides, hfits⟩
  rw [h.identifiers]
  exact hknown

/-- The value of an expression is multiplied in a refined system, unless an integer leaves the
range. -/
theorem evaluate_refined (h : fine.Refines s k) (hs : s.identifiers.Nodup) (e : Expression)
    (hpositive : ∀ term ∈ e, 0 < term.2.denominator.toInt) (v : Dimension)
    (hv : evaluate s e = .ok v) (hfits : FitsThroughout fine e) :
    ∃ w, evaluate fine e = .ok w ∧ w.values = v.values.map fun n => (k : Int) * n := by
  obtain ⟨hvalue, hvalues⟩ := (evaluate_eq_ok_iff s hs e hpositive v).mp hv
  have hfine : fine.identifiers.Nodup := h.identifiers ▸ hs
  obtain ⟨w, hw, hwvalues⟩ :=
    evaluate_of_hasValue fine hfine e hpositive (hasValue_refined h e hvalue hfits)
  have hdivides : Divides s e := hvalue.divides
  refine ⟨w, hw, ?_⟩
  rw [hwvalues, hvalues, h.identifiers, List.map_map]
  apply List.map_congr_left
  intro unit _
  exact total_refined h unit e hdivides

end Expression

/-- A dimension and its multiple in a refined system are shown by one text. -/
theorem Specification.Refines.format {fine s : Specification} {k : Nat} (h : fine.Refines s k)
    (hk : 0 < k) (v w : Dimension) (hvalues : w.values = v.values.map fun n => (k : Int) * n)
    (shown : String) (hshown : s.format v = .ok shown) : fine.format w = .ok shown := by
  obtain ⟨harity, htext⟩ := (s.format_eq_ok_iff v shown).mp hshown
  apply (fine.format_eq_ok_iff w shown).mpr
  constructor
  · rw [← w.length_values, hvalues, List.length_map, v.length_values, harity, h.arity]
  · rw [htext, h.baseUnits]
    exact (formatExponents_mul_left k hk s.allowedRoot fine.allowedRoot h.root s.baseUnits
      v.exponents w.exponents hvalues).symm

namespace Definition

/-- A definition whose root is replaced by a multiple becomes a refined system. -/
theorem refines_of_validate (d : Definition) (limits : Limits) (k : Nat) (root : Int64)
    (hroot : root.toInt = k * d.allowedRoot.toInt) (s fine : Specification)
    (hs : d.validate limits = .ok s)
    (hfine : { d with allowedRoot := root }.validate limits = .ok fine) : fine.Refines s k := by
  obtain ⟨-, -, -, coarse, hcoarse, rfl⟩ := (d.validate_eq_ok_iff limits s).mp hs
  obtain ⟨-, -, -, finer, hfiner, rfl⟩ := (validate_eq_ok_iff _ limits fine).mp hfine
  have hfirst : d.allowedRoot.toInt = coarse.toNat := (d.root32?_eq_some_iff coarse).mp hcoarse
  have hsecond : root.toInt = finer.toNat := (root32?_eq_some_iff _ finer).mp hfiner
  constructor
  · rfl
  · show finer.toNat = k * coarse.toNat
    rw [hfirst, hsecond] at hroot
    exact_mod_cast hroot

/-- The value of a text in a validated system is shown. -/
theorem format_evaluate (d : Definition) (limits : Limits) (s : Specification)
    (hs : d.validate limits = .ok s) (text : String) (v : Dimension)
    (hv : s.evaluate text = .ok v) : ∃ shown, s.format v = .ok shown := by
  have hnodup := (d.isValid_of_validate limits s hs).nodup
  cases hparse : Expression.parse text with
  | error error => simp [Specification.evaluate, hparse, bind, Except.bind] at hv
  | ok e =>
    rw [Expression.evaluate_of_parse s text e hparse, Expression.mapError_eq_ok_iff] at hv
    obtain ⟨-, hvalues⟩ := (Expression.evaluate_eq_ok_iff s hnodup e
      (Expression.denominator_parse text e hparse) v).mp hv
    refine ⟨_, (s.format_eq_ok_iff v _).mpr ⟨?_, rfl⟩⟩
    rw [← v.length_values, hvalues, List.length_map, s.length_identifiers]

/-- Replacing the root of a valid definition by a multiple is conservative. A text that has a value
has the multiple of this value after the replacement, if no integer on the way leaves the range,
and both values are shown by one text. -/
theorem evaluate_refinement (d : Definition) (limits : Limits) (k : Nat) (root : Int64)
    (hroot : root.toInt = k * d.allowedRoot.toInt) (s fine : Specification)
    (hs : d.validate limits = .ok s)
    (hfine : { d with allowedRoot := root }.validate limits = .ok fine) (text : String)
    (v : Dimension) (hv : s.evaluate text = .ok v)
    (hfits : ∀ e, Expression.parse text = .ok e → Expression.FitsThroughout fine e) :
    ∃ w shown, fine.evaluate text = .ok w ∧ w.values = (v.values.map fun n => (k : Int) * n) ∧
      s.format v = .ok shown ∧ fine.format w = .ok shown := by
  have hrefines := refines_of_validate d limits k root hroot s fine hs hfine
  have hpositive : 0 < k := by
    have hvalid := (isValid_of_validate _ limits fine hfine).root
    rw [hrefines.root] at hvalid
    exact Nat.pos_of_mul_pos_right hvalid
  obtain ⟨shown, hshown⟩ := format_evaluate d limits s hs text v hv
  cases hparse : Expression.parse text with
  | error error => simp [Specification.evaluate, hparse, bind, Except.bind] at hv
  | ok e =>
    rw [Expression.evaluate_of_parse s text e hparse, Expression.mapError_eq_ok_iff] at hv
    have hnodup := (d.isValid_of_validate limits s hs).nodup
    obtain ⟨w, hw, hvalues⟩ := Expression.evaluate_refined hrefines hnodup e
      (Expression.denominator_parse text e hparse) v hv (hfits e hparse)
    refine ⟨w, shown, ?_, hvalues, hshown, hrefines.format hpositive v w hvalues shown hshown⟩
    rw [Expression.evaluate_of_parse fine text e hparse, Expression.mapError_eq_ok_iff]
    exact hw

/-- Where the root is twelve and not six, two factors have the double value, shown by the same
text. -/
theorem evaluate_refinement_motion :
    ∃ fine, { motionDefinition with allowedRoot := 12 }.validate {} = .ok fine ∧
      ∃ w shown, fine.evaluate "Metre^5/3 * Unitless / Second^-1/2" = .ok w ∧ w.values = [20, 6] ∧
        (motionDefinition.toSpecification 6).format ⟨[10, 3]⟩ = .ok shown ∧
        fine.format w = .ok shown := by
  have hparse : Expression.parse "Metre^5/3 * Unitless / Second^-1/2" = .ok motionExpression :=
    eq_ok_of_toOption _ _ (by decide +kernel)
  have hfine : { motionDefinition with allowedRoot := 12 }.validate {} =
      .ok (motionDefinition.toSpecification 12) := eq_ok_of_toOption _ _ (by decide +kernel)
  have hvalue : (motionDefinition.toSpecification 6).evaluate "Metre^5/3 * Unitless / Second^-1/2" =
      .ok ⟨[10, 3]⟩ := eq_ok_of_toOption _ _ (by decide +kernel)
  have hfits : Expression.FitsThroughout (motionDefinition.toSpecification 12) motionExpression := by
    decide
  refine ⟨_, hfine, evaluate_refinement motionDefinition {} 2 12 (by decide) _ _
    validate_motionDefinition hfine _ _ hvalue ?_⟩
  intro e he
  rw [hparse] at he
  exact Except.ok.inj he ▸ hfits

end Definition

end UnitSystems
