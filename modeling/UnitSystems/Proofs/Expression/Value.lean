import Mathlib.Data.List.Induction
import UnitSystems.Proofs.Expression.Contribution
import UnitSystems.Proofs.Expression.Denominators
import UnitSystems.Proofs.Validation.Valid

/-!
# The value of an expression

The exponent of a base unit in the value of an expression is the sum of what the factors on this
unit contribute, each with its sign. The value exists exactly when no factor fails on its own and
every sum from the left up to any factor fits, for every base unit. Otherwise the first factor
that fails gives the error.
-/

namespace UnitSystems

namespace Expression

/-- A contribution with the sign of its factor. -/
def signed : Sign → Int → Int
  | .times, n => n
  | .over, n => -n

/-- The sum of the contributions to the exponent of a base unit. -/
def total (s : Specification) (unit : String) : Expression → Int
  | [] => 0
  | (sign, factor) :: rest => signed sign (share s factor unit) + total s unit rest

/-- The contributions of two runs of factors are added. -/
theorem total_append (s : Specification) (unit : String) (first second : Expression) :
    total s unit (first ++ second) = total s unit first + total s unit second := by
  induction first with
  | nil => rw [List.nil_append, total, Int.zero_add]
  | cons term first ih => rw [List.cons_append, total, total, ih, Int.add_assoc]

/-- The sum with one more factor. -/
theorem total_concat (s : Specification) (unit : String) (before : Expression) (sign : Sign)
    (factor : Factor) : total s unit (before ++ [(sign, factor)]) =
      total s unit before + signed sign (share s factor unit) := by
  rw [total_append, total, total, Int.add_zero]

/-- Expressions with a value in a system. -/
structure HasValue (s : Specification) (e : Expression) : Prop where
  /-- Every unit is a base unit. -/
  known : ∀ term ∈ e, ∀ name ∈ unitName? term.2, name ∈ s.identifiers
  /-- The root fits where a base unit occurs. -/
  root : ∀ term ∈ e, unitName? term.2 ≠ none → Fits s.allowedRoot.toNat
  /-- The root raised to a numerator fits. -/
  power : ∀ term ∈ e, unitName? term.2 ≠ none → Fits (scaled s term.2)
  /-- The denominators divide. -/
  divides : ∀ term ∈ e, unitName? term.2 ≠ none → term.2.denominator.toInt ∣ scaled s term.2
  /-- The sums of the first factors fit, however many. -/
  sums : ∀ before after, e = before ++ after → ∀ unit ∈ s.identifiers, Fits (total s unit before)

/-- The reason why a factor fails after others that have a value. -/
def failure? (s : Specification) (before : Expression) (sign : Sign) (factor : Factor) :
    Option NoValue :=
  match ownFailure? s factor with
  | some cause => some cause
  | none =>
    if ∀ unit ∈ s.identifiers, Fits (total s unit (before ++ [(sign, factor)])) then none
    else some (.dimension .overflow)

/-- The first factor that fails does so for a reason. -/
def Fails (s : Specification) (e : Expression) (cause : NoValue) : Prop :=
  ∃ before sign factor after, e = before ++ (sign, factor) :: after ∧ HasValue s before ∧
    failure? s before sign factor = some cause

/-- A factor has no failure of its own exactly when its unit is known, the root and its power fit
and the denominator divides. -/
theorem ownFailure?_eq_none_iff (s : Specification) (factor : Factor) :
    ownFailure? s factor = none ↔ (∀ name ∈ unitName? factor, name ∈ s.identifiers) ∧
      (unitName? factor ≠ none → Fits s.allowedRoot.toNat) ∧
      (unitName? factor ≠ none → Fits (scaled s factor)) ∧
      (unitName? factor ≠ none → factor.denominator.toInt ∣ scaled s factor) := by
  cases hname : unitName? factor with
  | none => simp [ownFailure?, hname]
  | some name =>
    cases hposition : s.position? name with
    | none =>
      have hunknown := (s.position?_eq_none_iff name).mp hposition
      simp [ownFailure?, hname, hposition, hunknown]
    | some position =>
      have hknown : name ∈ s.identifiers :=
        List.mem_of_getElem? (s.getElem?_of_position? name position hposition)
      simp only [ownFailure?, hname, hposition]
      constructor
      · intro h
        split at h
        · next hfits =>
          split at h
          · next hdvd => simp [hknown, hfits, hdvd]
          · contradiction
        · contradiction
      · rintro ⟨-, hroot, hpower, hdvd⟩
        rw [if_pos ⟨hroot (by simp), hpower (by simp)⟩, if_pos (hdvd (by simp))]

/-- An expression with one more factor has a value exactly when it had one before and the factor
does not fail. -/
theorem hasValue_concat_iff (s : Specification) (before : Expression) (sign : Sign)
    (factor : Factor) : HasValue s (before ++ [(sign, factor)]) ↔
      HasValue s before ∧ failure? s before sign factor = none := by
  have hfailure : failure? s before sign factor = none ↔ ownFailure? s factor = none ∧
      ∀ unit ∈ s.identifiers, Fits (total s unit (before ++ [(sign, factor)])) := by
    unfold failure?
    split <;> simp_all
  rw [hfailure, ownFailure?_eq_none_iff]
  constructor
  · intro h
    have hlast : (sign, factor) ∈ before ++ [(sign, factor)] := by simp
    have hfirst (term : Sign × Factor) (hterm : term ∈ before) :
        term ∈ before ++ [(sign, factor)] := List.mem_append_left _ hterm
    refine ⟨⟨fun term ht => h.known term (hfirst term ht), fun term ht => h.root term (hfirst term ht),
      fun term ht => h.power term (hfirst term ht), fun term ht => h.divides term (hfirst term ht), ?_⟩,
      ⟨h.known _ hlast, h.root _ hlast, h.power _ hlast, h.divides _ hlast⟩,
      h.sums _ [] (List.append_nil _).symm⟩
    rintro first second rfl
    exact h.sums first (second ++ [(sign, factor)]) (List.append_assoc _ _ _)
  · rintro ⟨h, ⟨hknown, hroot, hpower, hdvd⟩, hsum⟩
    refine
      { known := ?_
        root := ?_
        power := ?_
        divides := ?_
        sums := ?_ }
    · exact List.forall_mem_append.mpr ⟨h.known, by simpa using hknown⟩
    · exact List.forall_mem_append.mpr ⟨h.root, by simpa using hroot⟩
    · exact List.forall_mem_append.mpr ⟨h.power, by simpa using hpower⟩
    · exact List.forall_mem_append.mpr ⟨h.divides, by simpa using hdvd⟩
    · intro first second heq
      rcases List.eq_nil_or_concat second with rfl | ⟨others, last, rfl⟩
      · rw [List.append_nil] at heq
        exact heq ▸ hsum
      · rw [List.concat_eq_append, ← List.append_assoc] at heq
        exact h.sums first others (List.append_inj_left' heq rfl)

/-- No factors have a value. -/
theorem hasValue_nil (s : Specification) : HasValue s [] := by
  refine ⟨by simp, by simp, by simp, by simp, ?_⟩
  intro before after heq unit _
  rw [(List.append_eq_nil_iff.mp heq.symm).1, total]
  decide

/-- An expression has a value, or its first factor that fails has a reason. -/
theorem hasValue_or_fails (s : Specification) (e : Expression) :
    HasValue s e ∨ ∃ cause, Fails s e cause := by
  induction e using List.reverseRecOn with
  | nil => exact .inl (hasValue_nil s)
  | append_singleton before term ih =>
    obtain ⟨sign, factor⟩ := term
    rcases ih with hbefore | ⟨cause, first, sign', factor', after, rfl, hfirst, hcause⟩
    · cases hfailure : failure? s before sign factor with
      | none => exact .inl ((hasValue_concat_iff s before sign factor).mpr ⟨hbefore, hfailure⟩)
      | some cause => exact .inr ⟨cause, before, sign, factor, [], rfl, hbefore, hfailure⟩
    · refine .inr ⟨cause, first, sign', factor', after ++ [(sign, factor)], ?_, hfirst, hcause⟩
      simp only [List.append_assoc, List.cons_append]

/-- A value joined with the contribution of one more factor. -/
def joined (s : Specification) (before : Dimension) (sign : Sign) (factor : Factor) :
    Except NoValue Dimension :=
  (contribution s factor).bind (join sign before)

/-- Factors are evaluated one after the other. -/
theorem evaluateFrom_cons (s : Specification) (before : Dimension) (sign : Sign) (factor : Factor)
    (rest : Expression) : evaluateFrom s before ((sign, factor) :: rest) =
      (joined s before sign factor).bind fun next => evaluateFrom s next rest := by
  rw [evaluateFrom, joined]
  cases contribution s factor <;> rfl

/-- Two runs of factors are evaluated one after the other. -/
theorem evaluateFrom_append (s : Specification) (before : Dimension) (first second : Expression) :
    evaluateFrom s before (first ++ second) =
      (evaluateFrom s before first).bind fun next => evaluateFrom s next second := by
  induction first generalizing before with
  | nil => rfl
  | cons term first ih =>
    obtain ⟨sign, factor⟩ := term
    rw [List.cons_append, evaluateFrom_cons, evaluateFrom_cons]
    cases joined s before sign factor with
    | error cause => rfl
    | ok next => exact ih next

/-- Dimensions are joined when all sums fit. -/
theorem join_ok (sign : Sign) (a b : Dimension) (harity : a.arity = b.arity)
    (h : ∀ n ∈ List.zipWith (fun x y => x + signed sign y) a.values b.values, Fits n) :
    ∃ v, join sign a b = .ok v ∧
      v.values = List.zipWith (fun x y => x + signed sign y) a.values b.values := by
  match sign with
  | .times =>
    obtain ⟨v, hv, hvalues⟩ := Dimension.zip_ok (· + ·) a b harity h
    exact ⟨v, by rw [join, Dimension.add, hv]; rfl, hvalues⟩
  | .over =>
    obtain ⟨v, hv, hvalues⟩ := Dimension.zip_ok (· - ·) a b harity h
    exact ⟨v, by rw [join, Dimension.sub, hv]; rfl, hvalues⟩

/-- Dimensions are not joined when a sum does not fit. -/
theorem join_overflow (sign : Sign) (a b : Dimension) (harity : a.arity = b.arity)
    (h : ¬ ∀ n ∈ List.zipWith (fun x y => x + signed sign y) a.values b.values, Fits n) :
    join sign a b = .error (.dimension .overflow) := by
  match sign with
  | .times => rw [join, Dimension.add, Dimension.zip_overflow (· + ·) a b harity h]; rfl
  | .over => rw [join, Dimension.sub, Dimension.zip_overflow (· - ·) a b harity h]; rfl

/-- Two lists over the same base units are joined at every unit. -/
theorem zipWith_shares (s : Specification) (before : Expression) (sign : Sign) (factor : Factor) :
    List.zipWith (fun x y => x + signed sign y) (s.identifiers.map fun unit => total s unit before)
        (s.identifiers.map (share s factor)) =
      s.identifiers.map fun unit => total s unit (before ++ [(sign, factor)]) := by
  rw [List.zipWith_map, List.zipWith_self]
  exact List.map_congr_left fun unit _ => (total_concat s unit before sign factor).symm

/-- A factor that does not fail is added to the value of the factors before it. -/
theorem joined_ok (s : Specification) (hs : s.identifiers.Nodup) (before : Expression)
    (value : Dimension) (hvalue : value.values = s.identifiers.map fun unit => total s unit before)
    (sign : Sign) (factor : Factor) (hdenominator : 0 < factor.denominator.toInt)
    (h : failure? s before sign factor = none) :
    ∃ v, joined s value sign factor = .ok v ∧
      v.values = s.identifiers.map fun unit => total s unit (before ++ [(sign, factor)]) := by
  unfold failure? at h
  split at h
  · contradiction
  · next hown =>
    split at h
    · next hfits =>
      obtain ⟨share, hshare, hvalues⟩ := contribution_ok s hs factor hdenominator hown
      have harity : value.arity = share.arity := by
        rw [← value.length_values, ← share.length_values, hvalue, hvalues, List.length_map,
          List.length_map]
      have hzip := zipWith_shares s before sign factor
      rw [← hvalue, ← hvalues] at hzip
      obtain ⟨v, hjoin, hv⟩ := join_ok sign value share harity (by
        rw [hzip, List.forall_mem_map]
        exact hfits)
      refine ⟨v, ?_, hv.trans hzip⟩
      rw [joined, hshare]
      exact hjoin
    · contradiction

/-- A factor that fails after others that have a value gives its reason. -/
theorem joined_error (s : Specification) (hs : s.identifiers.Nodup) (before : Expression)
    (value : Dimension) (hvalue : value.values = s.identifiers.map fun unit => total s unit before)
    (sign : Sign) (factor : Factor) (hdenominator : 0 < factor.denominator.toInt) (cause : NoValue)
    (h : failure? s before sign factor = some cause) :
    joined s value sign factor = .error cause := by
  unfold failure? at h
  split at h
  · next own hown =>
    obtain rfl := Option.some.inj h
    rw [joined, contribution_error s factor hdenominator own hown]
    rfl
  · next hown =>
    split at h
    · contradiction
    · next hfits =>
      obtain rfl := Option.some.inj h
      obtain ⟨share, hshare, hvalues⟩ := contribution_ok s hs factor hdenominator hown
      have harity : value.arity = share.arity := by
        rw [← value.length_values, ← share.length_values, hvalue, hvalues, List.length_map,
          List.length_map]
      have hzip := zipWith_shares s before sign factor
      rw [← hvalue, ← hvalues] at hzip
      rw [joined, hshare]
      refine join_overflow sign value share harity fun hall => hfits ?_
      rwa [hzip, List.forall_mem_map] at hall

/-- An expression with a value evaluates to the sums of the contributions. -/
theorem evaluate_of_hasValue (s : Specification) (hs : s.identifiers.Nodup) (e : Expression)
    (hpositive : ∀ term ∈ e, 0 < term.2.denominator.toInt) (h : HasValue s e) :
    ∃ v, evaluate s e = .ok v ∧ v.values = s.identifiers.map fun unit => total s unit e := by
  induction e using List.reverseRecOn with
  | nil =>
    refine ⟨s.dimensionless, rfl, ?_⟩
    rw [Specification.dimensionless, Dimension.values_dimensionless, Specification.arity,
      Specification.identifiers, List.map_map]
    exact (List.map_const').symm
  | append_singleton before term ih =>
    obtain ⟨sign, factor⟩ := term
    obtain ⟨hbefore, hfailure⟩ := (hasValue_concat_iff s before sign factor).mp h
    obtain ⟨hfirst, hlast⟩ := List.forall_mem_append.mp hpositive
    obtain ⟨value, hvalue, hvalues⟩ := ih hfirst hbefore
    obtain ⟨v, hjoined, hv⟩ := joined_ok s hs before value hvalues sign factor
      (hlast _ List.mem_cons_self) hfailure
    refine ⟨v, ?_, hv⟩
    rw [evaluate] at hvalue ⊢
    rw [evaluateFrom_append, hvalue]
    show evaluateFrom s value [(sign, factor)] = .ok v
    rw [evaluateFrom_cons, hjoined]
    rfl

/-- An expression whose first failing factor has a reason evaluates to this reason. -/
theorem evaluate_of_fails (s : Specification) (hs : s.identifiers.Nodup) (e : Expression)
    (hpositive : ∀ term ∈ e, 0 < term.2.denominator.toInt) (cause : NoValue)
    (h : Fails s e cause) : evaluate s e = .error cause := by
  obtain ⟨before, sign, factor, after, rfl, hbefore, hcause⟩ := h
  obtain ⟨hfirst, hlast⟩ := List.forall_mem_append.mp hpositive
  obtain ⟨value, hvalue, hvalues⟩ := evaluate_of_hasValue s hs before hfirst hbefore
  have hjoined := joined_error s hs before value hvalues sign factor
    (hlast _ List.mem_cons_self) cause hcause
  rw [evaluate] at hvalue ⊢
  rw [evaluateFrom_append, hvalue]
  show evaluateFrom s value ((sign, factor) :: after) = .error cause
  rw [evaluateFrom_cons, hjoined]
  rfl

/-- An expression evaluates to the dimension that holds the sums of the contributions, precisely
when it has a value. -/
theorem evaluate_eq_ok_iff (s : Specification) (hs : s.identifiers.Nodup) (e : Expression)
    (hpositive : ∀ term ∈ e, 0 < term.2.denominator.toInt) (v : Dimension) :
    evaluate s e = .ok v ↔
      HasValue s e ∧ v.values = s.identifiers.map fun unit => total s unit e := by
  constructor
  · intro h
    rcases hasValue_or_fails s e with hvalue | ⟨cause, hcause⟩
    · obtain ⟨w, hw, hvalues⟩ := evaluate_of_hasValue s hs e hpositive hvalue
      obtain rfl := Except.ok.inj (hw.symm.trans h)
      exact ⟨hvalue, hvalues⟩
    · rw [evaluate_of_fails s hs e hpositive cause hcause] at h
      contradiction
  · rintro ⟨hvalue, hvalues⟩
    obtain ⟨w, hw, hwvalues⟩ := evaluate_of_hasValue s hs e hpositive hvalue
    rw [hw, Dimension.values_injective w v (hwvalues.trans hvalues.symm)]

/-- An expression evaluates to the reason of its first factor that fails, precisely when one
does. -/
theorem evaluate_eq_error_iff (s : Specification) (hs : s.identifiers.Nodup) (e : Expression)
    (hpositive : ∀ term ∈ e, 0 < term.2.denominator.toInt) (cause : NoValue) :
    evaluate s e = .error cause ↔ Fails s e cause := by
  constructor
  · intro h
    rcases hasValue_or_fails s e with hvalue | ⟨found, hfound⟩
    · obtain ⟨v, hv, -⟩ := evaluate_of_hasValue s hs e hpositive hvalue
      rw [hv] at h
      contradiction
    · obtain rfl :=
        Except.error.inj ((evaluate_of_fails s hs e hpositive found hfound).symm.trans h)
      exact hfound
  · exact evaluate_of_fails s hs e hpositive cause

/-- Translating errors keeps values. -/
theorem mapError_eq_ok_iff {ε ε' α : Type} (x : Except ε α) (f : ε → ε') (a : α) :
    x.mapError f = .ok a ↔ x = .ok a := by
  cases x <;> simp [Except.mapError]

/-- A translated error comes from an error. -/
theorem mapError_eq_error_iff {α : Type} (x : Except NoValue α) (f : NoValue → Error)
    (error : Error) : x.mapError f = .error error ↔ ∃ cause, x = .error cause ∧ error = f cause := by
  cases x with
  | ok a => simp [Except.mapError]
  | error cause => simp [Except.mapError, eq_comm]

/-- A factor fails on dimensions only by an overflow or by a remainder. -/
theorem failure?_dimension (s : Specification) (before : Expression) (sign : Sign)
    (factor : Factor) (cause : DimensionError)
    (h : failure? s before sign factor = some (.dimension cause)) :
    cause = .overflow ∨ ∃ dimension divisor position,
      cause = .notDivisible dimension divisor position := by
  unfold failure? at h
  split at h
  · next own hown =>
    obtain rfl := Option.some.inj h
    unfold ownFailure? at hown
    split at hown
    · contradiction
    split at hown
    · simp at hown
    split at hown
    · split at hown
      · contradiction
      · simp only [Option.some.injEq, NoValue.dimension.injEq] at hown
        exact .inr ⟨_, _, _, hown.symm⟩
    · simp only [Option.some.injEq, NoValue.dimension.injEq] at hown
      exact .inl hown.symm
  · split at h
    · contradiction
    · simp only [Option.some.injEq, NoValue.dimension.injEq] at h
      exact .inl h.symm

/-- A text that is no expression is reported as such. -/
theorem parse_error (text : String) (error : Error) (h : parse text = .error error) :
    ∃ complaint, error = .parse complaint text := by
  unfold parse at h
  simp only [Except.mapError] at h
  split at h
  · next complaint _ =>
    obtain rfl := Except.error.inj h
    exact ⟨complaint, rfl⟩
  · contradiction

/-- The value of a text that is an expression is the value of the expression. -/
theorem evaluate_of_parse (s : Specification) (text : String) (e : Expression)
    (h : parse text = .ok e) :
    s.evaluate text = (evaluate s e).mapError (NoValue.toError s text) := by
  rw [Specification.evaluate, h]
  rfl

end Expression

/-- The evaluation of a text against a validated system is exact. A text that is an expression
has the value that holds, for every base unit, the sum of the contributions of the factors on
this unit, precisely when it has a value at all; otherwise the reason of the first factor that
fails is the error. No text leads to an error about divisors of zero, different arities,
incompatible dimensions or missing positions. -/
theorem evaluate_exact (d : Definition) (limits : Limits) (s : Specification)
    (hs : d.validate limits = .ok s) (text : String) :
    (∀ e, Expression.parse text = .ok e →
      (∀ v, s.evaluate text = .ok v ↔ Expression.HasValue s e ∧
        v.values = s.identifiers.map fun unit => Expression.total s unit e) ∧
      ∀ error, s.evaluate text = .error error ↔
        ∃ cause, Expression.Fails s e cause ∧ error = cause.toError s text) ∧
    ∀ cause, s.evaluate text = .error (.dimension cause) →
      cause ≠ .zeroDivisor ∧ (∀ left right, cause ≠ .arityMismatch left right) ∧
        (∀ left right, cause ≠ .incompatible left right) ∧
        ∀ position arity, cause ≠ .positionOutOfRange position arity := by
  have hnodup := (d.isValid_of_validate limits s hs).nodup
  refine ⟨fun e he => ?_, fun cause hcause => ?_⟩
  · have hpositive := Expression.denominator_parse text e he
    rw [Expression.evaluate_of_parse s text e he]
    refine ⟨fun v => ?_, fun error => ?_⟩
    · rw [Expression.mapError_eq_ok_iff, Expression.evaluate_eq_ok_iff s hnodup e hpositive]
    · simp only [Expression.mapError_eq_error_iff,
        Expression.evaluate_eq_error_iff s hnodup e hpositive]
  · cases hparse : Expression.parse text with
    | error error =>
      obtain ⟨complaint, rfl⟩ := Expression.parse_error text error hparse
      simp [Specification.evaluate, hparse, bind, Except.bind] at hcause
    | ok e =>
      rw [Expression.evaluate_of_parse s text e hparse, Expression.mapError_eq_error_iff] at hcause
      obtain ⟨reason, hreason, heq⟩ := hcause
      rw [Expression.evaluate_eq_error_iff s hnodup e
        (Expression.denominator_parse text e hparse)] at hreason
      obtain ⟨before, sign, factor, after, -, -, hfailure⟩ := hreason
      cases reason with
      | unknownUnit name span => contradiction
      | dimension found =>
        obtain rfl := Error.dimension.inj heq
        rcases Expression.failure?_dimension s before sign factor cause hfailure with
          rfl | ⟨dimension, divisor, position, rfl⟩
        · simp
        · simp

/-- Two factors on the metre and one on the second, where the root is six. -/
def motionExpression : Expression :=
  [(.times, ⟨.unit "Metre", 5, 3, ⟨0, 9, 1, 1⟩⟩), (.times, ⟨.unit "Unitless", 1, 1, ⟨12, 21, 1, 13⟩⟩),
    (.over, ⟨.unit "Second", -1, 2, ⟨23, 34, 1, 24⟩⟩)]

/-- The value of an expression holds the sums of the contributions, and a factor without a value
is reported even when a later one is unknown. -/
theorem evaluate_exact_motion :
    ∃ s, motionDefinition.validate {} = .ok s ∧
      Expression.parse "Metre^5/3 * Unitless / Second^-1/2" = .ok motionExpression ∧
      Expression.HasValue s motionExpression ∧
      Dimension.values ⟨[10, 3]⟩ =
        (s.identifiers.map fun unit => Expression.total s unit motionExpression) ∧
      ∃ e, Expression.parse "Metre^5/4 * Mile" = .ok e ∧
        ∃ cause, Expression.Fails s e cause ∧
          Error.dimension (.notDivisible ⟨[30, 0]⟩ 4 0) = cause.toError s "Metre^5/4 * Mile" := by
  have he : Expression.parse "Metre^5/3 * Unitless / Second^-1/2" = .ok motionExpression :=
    eq_ok_of_toOption _ _ (by decide +kernel)
  have hf : Expression.parse "Metre^5/4 * Mile" = .ok [
      (.times, ⟨.unit "Metre", 5, 4, ⟨0, 9, 1, 1⟩⟩), (.times, ⟨.unit "Mile", 1, 1, ⟨12, 16, 1, 13⟩⟩)] :=
    eq_ok_of_toOption _ _ (by decide +kernel)
  have hvalue := ((evaluate_exact motionDefinition {} _ validate_motionDefinition _).1 _ he).1 ⟨[10, 3]⟩
  have hfailure := ((evaluate_exact motionDefinition {} _ validate_motionDefinition _).1 _ hf).2
    (.dimension (.notDivisible ⟨[30, 0]⟩ 4 0))
  obtain ⟨hhas, htotals⟩ := hvalue.mp (eq_ok_of_toOption _ _ (by decide +kernel))
  refine ⟨_, validate_motionDefinition, he, hhas, htotals, _, hf, hfailure.mp ?_⟩
  rw [Expression.evaluate_of_parse _ _ _ hf]
  have hreason : Expression.evaluate (motionDefinition.toSpecification 6) [
      (.times, ⟨.unit "Metre", 5, 4, ⟨0, 9, 1, 1⟩⟩), (.times, ⟨.unit "Mile", 1, 1, ⟨12, 16, 1, 13⟩⟩)] =
    .error (.dimension (.notDivisible ⟨[30, 0]⟩ 4 0)) := by decide +kernel
  rw [hreason]
  rfl

end UnitSystems
