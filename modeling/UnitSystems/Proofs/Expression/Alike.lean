import UnitSystems.Proofs.Dimension.Group
import UnitSystems.Proofs.Expression.Terms

/-!
# Expressions with the same powers

The outcome of an expression depends on its powers and their signs alone, up to the place of the
factor that an error marks. A quotient by one changes nothing.
-/

namespace UnitSystems.Expression

open Spelled (powers)

/-- Outcomes that differ at most in the place of a factor whose unit is unknown. -/
inductive Alike {α : Type} : Except NoValue α → Except NoValue α → Prop
  | value (a : α) : Alike (.ok a) (.ok a)
  | dimension (cause : DimensionError) :
    Alike (.error (.dimension cause)) (.error (.dimension cause))
  | unknownUnit (name : String) (first second : Span) :
    Alike (.error (.unknownUnit name first)) (.error (.unknownUnit name second))

section

variable {α β : Type}

/-- Every outcome is like itself. -/
theorem Alike.refl (outcome : Except NoValue α) : Alike outcome outcome :=
  match outcome with
  | .ok a => .value a
  | .error (.dimension cause) => .dimension cause
  | .error (.unknownUnit name span) => .unknownUnit name span span

/-- Steps with like outcomes have like outcomes one after the other. -/
theorem Alike.bind {first second : Except NoValue α} (h : Alike first second)
    {next other : α → Except NoValue β} (hnext : ∀ a, Alike (next a) (other a)) :
    Alike (first.bind next) (second.bind other) := by
  cases h with
  | value a => exact hnext a
  | dimension cause => exact .dimension cause
  | unknownUnit name first second => exact .unknownUnit name first second

end

variable (s : Specification)

/-- What a factor contributes depends on its power alone. -/
theorem contribution_alike {first second : Factor} (h : first.power = second.power) :
    Alike (contribution s first) (contribution s second) := by
  obtain ⟨base, numerator, denominator, span⟩ := first
  obtain ⟨base', numerator', denominator', span'⟩ := second
  obtain ⟨rfl, rfl, rfl⟩ := Power.mk.inj h
  refine Alike.bind ?_ fun a => .refl _
  cases base with
  | one => exact .refl _
  | unit name =>
    simp only [baseDimension]
    split
    · exact .refl _
    · split
      · exact .unknownUnit name span span'
      · exact .refl _

/-- The value of an expression depends on its powers alone. -/
theorem evaluateFrom_alike (total : Dimension) {first second : Expression}
    (h : powers first = powers second) :
    Alike (evaluateFrom s total first) (evaluateFrom s total second) := by
  induction first generalizing second total with
  | nil =>
    obtain rfl := List.map_eq_nil_iff.mp h.symm
    exact .refl _
  | cons term first ih =>
    cases second with
    | nil => contradiction
    | cons other second =>
      obtain ⟨hterm, hrest⟩ := List.cons.inj h
      obtain ⟨hsign, hpower⟩ := Prod.mk.inj hterm
      obtain ⟨sign, factor⟩ := term
      obtain ⟨sign', factor'⟩ := other
      obtain rfl : sign = sign' := hsign
      rw [evaluateFrom_cons, evaluateFrom_cons]
      refine Alike.bind ?_ fun next => ih next hrest
      exact (contribution_alike s hpower).bind fun a => .refl _

/-- A value joined with a contribution keeps its arity. -/
theorem arity_joined {total value : Dimension} {sign : Sign} {factor : Factor}
    (h : joined s total sign factor = .ok value) : value.arity = total.arity := by
  have harity (op : Int → Int → Int) (share : Dimension)
      (hzip : (Dimension.zip op total share).mapError NoValue.dimension = .ok value) :
      value.arity = total.arity := by
    have hvalue := (mapError_eq_ok_iff _ _ _).mp hzip
    exact (Dimension.arity_of_zip op total share hvalue).trans
      (((Dimension.isExact_zip op total share).result value).mp hvalue).1.symm
  unfold joined at h
  cases hshare : contribution s factor with
  | error cause =>
    rw [hshare] at h
    contradiction
  | ok share =>
    rw [hshare] at h
    cases sign
    · exact harity _ share h
    · exact harity _ share h

/-- The value of an expression has the arity of the value that it is added to. -/
theorem arity_evaluateFrom {total value : Dimension} {e : Expression}
    (h : evaluateFrom s total e = .ok value) : value.arity = total.arity := by
  induction e generalizing total with
  | nil => rw [Except.ok.inj h]
  | cons term e ih =>
    rw [evaluateFrom_cons] at h
    cases hjoined : joined s total term.1 term.2 with
    | error cause =>
      rw [hjoined] at h
      contradiction
    | ok next =>
      rw [hjoined] at h
      exact (ih h).trans (arity_joined s hjoined)

/-- A quotient by one contributes nothing. -/
theorem joined_one {total : Dimension} (harity : total.arity = s.arity) {factor : Factor}
    (hfactor : factor.power = ⟨.one, 1, 1⟩) : joined s total .over factor = .ok total := by
  obtain ⟨hbase, -, hdenominator⟩ := Power.mk.inj hfactor
  have hname : unitName? factor = none := by
    rw [unitName?, hbase]
  obtain ⟨share, hshare, hvalues⟩ := contribution_of_unitName?_eq_none s factor
    (by rw [hdenominator]; decide) hname
  have hself : total.add share = .ok total := by
    refine (total.add_eq_self_iff share).mpr ⟨?_, share.isDimensionless_iff.mpr fun n hn => ?_⟩
    · rw [harity, ← share.length_values, hvalues, List.length_map, s.length_identifiers]
    · rw [hvalues, List.mem_map] at hn
      obtain ⟨unit, -, rfl⟩ := hn
      rw [Expression.share, hname, if_neg (Option.some_ne_none unit).symm]
  rw [joined, hshare]
  show (total.sub share).mapError NoValue.dimension = .ok total
  rw [(total.add_eq_ok_iff_sub share total).mp hself]
  rfl

/-- An expression has the outcome that it has without a quotient by one. -/
theorem evaluate_without_one (before after : Expression) {factor : Factor}
    (hfactor : factor.power = ⟨.one, 1, 1⟩) :
    evaluate s (before ++ (.over, factor) :: after) = evaluate s (before ++ after) := by
  rw [evaluate, evaluate, evaluateFrom_append, evaluateFrom_append]
  cases hbefore : evaluateFrom s s.dimensionless before with
  | error cause => rfl
  | ok total =>
    have harity : total.arity = s.arity := by
      rw [arity_evaluateFrom s hbefore, ← Dimension.length_values, Specification.dimensionless,
        Dimension.values_dimensionless, List.length_replicate]
    show evaluateFrom s total ((.over, factor) :: after) = evaluateFrom s total after
    rw [evaluateFrom_cons, joined_one s harity hfactor]
    rfl

end UnitSystems.Expression
