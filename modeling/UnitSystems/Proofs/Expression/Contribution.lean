import Mathlib.Data.List.Nodup
import UnitSystems.Expression
import UnitSystems.Proofs.Dimension.Exact
import UnitSystems.Proofs.Validation.Valid

/-!
# What one factor contributes

A factor that stands for a base unit contributes an exact rational multiple of the root to the
exponent of that unit, and nothing to the others. Where this multiple is no integer, or an
integer on the way does not fit, the factor fails, and so does a factor whose unit is unknown.
Every other factor contributes nothing.
-/

namespace UnitSystems

namespace Expression

/-- The unit that a factor stands for, if it stands for one. -/
def unitName? (factor : Factor) : Option String :=
  match factor.base with
  | .one => none
  | .unit name => if name = unitlessName then none else some name

/-- The root raised to the numerator of a factor. -/
def scaled (s : Specification) (factor : Factor) : Int :=
  s.allowedRoot.toNat * factor.numerator.toInt

/-- What a factor contributes to the exponent of a base unit. -/
def share (s : Specification) (factor : Factor) (unit : String) : Int :=
  if unitName? factor = some unit then scaled s factor / factor.denominator.toInt else 0

/-- The dimension of a base unit raised to the numerator of a factor. -/
def powered (s : Specification) (factor : Factor) (position : Nat) : Dimension :=
  ⟨(List.replicate s.arity 0).set position (Int32.ofInt (scaled s factor))⟩

/-- The reason why a factor contributes nothing that could be added, the first in this order: its
unit is unknown, the root or its power does not fit, the denominator does not divide the power. -/
def ownFailure? (s : Specification) (factor : Factor) : Option NoValue :=
  match unitName? factor with
  | none => none
  | some name =>
    match s.position? name with
    | none => some (.unknownUnit name factor.span)
    | some position =>
      if Fits s.allowedRoot.toNat ∧ Fits (scaled s factor) then
        if factor.denominator.toInt ∣ scaled s factor then none
        else some (.dimension
          (.notDivisible (powered s factor position) factor.denominator position))
      else some (.dimension .overflow)

end Expression

/-- The position of a base unit is one where its name stands. -/
theorem Specification.getElem?_of_position? (s : Specification) (name : String) (position : Nat)
    (h : s.position? name = some position) : s.identifiers[position]? = some name := by
  obtain ⟨hlt, hname, -⟩ := List.findIdx?_eq_some_iff_getElem.mp h
  rw [List.getElem?_eq_getElem hlt]
  exact congrArg some (by simpa using hname)

/-- A unit has a position exactly when it is a base unit. -/
theorem Specification.position?_eq_none_iff (s : Specification) (name : String) :
    s.position? name = none ↔ name ∉ s.identifiers := by
  rw [position?, List.findIdx?_eq_none_iff]
  constructor
  · intro h hmem
    simpa using h name hmem
  · rintro h other hother
    simp only [beq_eq_false_iff_ne, ne_eq]
    rintro rfl
    exact h hother

/-- A list of zeros with one other entry, at the position of a name, depends on the name alone. -/
theorem replicate_set_eq_map (names : List String) (hnames : names.Nodup) (name : String)
    (position : Nat) (hposition : names[position]? = some name) (n : Int) :
    (List.replicate names.length 0).set position n =
      names.map fun other => if some name = some other then n else 0 := by
  obtain ⟨hlt, hname⟩ := List.getElem?_eq_some_iff.mp hposition
  refine List.ext_getElem (by simp) fun i hi hmap => ?_
  rw [List.length_set, List.length_replicate] at hi
  rw [List.getElem_set, List.getElem_map, List.getElem_replicate]
  by_cases heq : position = i
  · subst heq
    simp [hname]
  · have hother : name ≠ names[i] := fun h => heq ((hnames.getElem_inj_iff).mp (hname.trans h))
    simp [heq, hother]

/-- What holds of zero and of one more integer holds of all integers in a list of zeros with this
integer at a position. -/
theorem forall_mem_replicate_set (arity position : Nat) (n : Int) (p : Int → Prop) (hzero : p 0)
    (hn : p n) : ∀ m ∈ (List.replicate arity 0).set position n, p m := by
  intro m hm
  rcases List.mem_or_eq_of_mem_set hm with hm | rfl
  · exact List.eq_of_mem_replicate hm ▸ hzero
  · exact hn

namespace Expression

/-- The integers of a power of a base unit. -/
theorem values_powered (s : Specification) (factor : Factor) (position : Nat)
    (h : Fits (scaled s factor)) :
    (powered s factor position).values =
      (List.replicate s.arity 0).set position (scaled s factor) := by
  obtain ⟨e, hsome, hvalue⟩ := exists_exponent _ h
  have hofInt : Int32.ofInt (scaled s factor) = e := by
    rw [← hvalue, Int32.ofInt_toInt]
  rw [powered, hofInt, Dimension.values, List.map_set, List.map_replicate, hvalue,
    Int32.toInt_zero]

/-- The dimension of a base unit exists when the root fits. -/
theorem unitDimension_ok (s : Specification) (position : Nat) (hposition : position < s.arity)
    (h : Fits s.allowedRoot.toNat) :
    ∃ v, s.unitDimension position = .ok v ∧
      v.values = (List.replicate s.arity 0).set position (s.allowedRoot.toNat : Int) := by
  obtain ⟨e, hsome, hvalue⟩ := exists_exponent _ h
  refine ⟨⟨(List.replicate s.arity 0).set position e⟩, ?_, ?_⟩
  · rw [Specification.unitDimension, Dimension.unit, if_neg (Nat.not_le.mpr hposition), hsome]
  · rw [Dimension.values, List.map_set, List.map_replicate, hvalue, Int32.toInt_zero]

/-- The dimension of a base unit does not exist when the root does not fit. -/
theorem unitDimension_overflow (s : Specification) (position : Nat)
    (hposition : position < s.arity) (h : ¬ Fits s.allowedRoot.toNat) :
    s.unitDimension position = .error .overflow := by
  rw [Specification.unitDimension, Dimension.unit, if_neg (Nat.not_le.mpr hposition),
    exponent?_eq_none _ h]

/-- A factor whose base has a dimension contributes the power and the root of this dimension, when
the powers fit and the denominator divides them. -/
theorem contribution_of_baseDimension (s : Specification) (factor : Factor) (base : Dimension)
    (hdenominator : 0 < factor.denominator.toInt) (hbase : baseDimension s factor = .ok base)
    (hfits : ∀ n ∈ base.values, Fits (n * factor.numerator.toInt))
    (hdvd : ∀ n ∈ base.values, factor.denominator.toInt ∣ n * factor.numerator.toInt) :
    ∃ v, contribution s factor = .ok v ∧ v.values =
      base.values.map fun n => n * factor.numerator.toInt / factor.denominator.toInt := by
  have hne : factor.denominator ≠ 0 := by
    rintro hzero
    rw [hzero] at hdenominator
    contradiction
  obtain ⟨raised, hpower, hraised⟩ := Dimension.power_ok base factor.numerator hfits
  have hdivides : ∀ n ∈ raised.values, factor.denominator.toInt ∣ n := by
    rw [hraised, List.forall_mem_map]
    exact hdvd
  have hquotients : ∀ n ∈ raised.values, Fits (n / factor.denominator.toInt) := by
    intro n hn
    rw [← Int.tdiv_eq_ediv_of_dvd (hdivides n hn)]
    exact fits_tdiv n _ (Dimension.fits_of_mem_values raised n hn) (by omega)
  obtain ⟨v, hroot, hv⟩ := Dimension.root_ok raised factor.denominator hne hdivides hquotients
  refine ⟨v, ?_, ?_⟩
  · simp only [contribution, hbase, hpower, hroot, bind, Except.bind, Except.mapError]
  · rw [hv, hraised, List.map_map]
    rfl

/-- A factor that stands for no unit contributes zero everywhere. -/
theorem contribution_of_unitName?_eq_none (s : Specification) (factor : Factor)
    (hdenominator : 0 < factor.denominator.toInt) (hname : unitName? factor = none) :
    ∃ v, contribution s factor = .ok v ∧ v.values = s.identifiers.map (share s factor) := by
  have hbase : baseDimension s factor = .ok s.dimensionless := by
    unfold unitName? at hname
    unfold baseDimension
    cases hbase : factor.base with
    | one => rfl
    | unit name =>
      simp only [hbase, ite_eq_left_iff, reduceCtorEq, imp_false, not_not] at hname
      simp only [if_pos hname]
  have hvalues : s.dimensionless.values = List.replicate s.arity 0 :=
    Dimension.values_dimensionless s.arity
  obtain ⟨v, hcontribution, hv⟩ := contribution_of_baseDimension s factor s.dimensionless
    hdenominator hbase
    (fun n hn => by
      rw [hvalues] at hn
      rw [List.eq_of_mem_replicate hn, Int.zero_mul]
      decide)
    (fun n hn => by
      rw [hvalues] at hn
      rw [List.eq_of_mem_replicate hn, Int.zero_mul]
      exact Int.dvd_zero _)
  refine ⟨v, hcontribution, ?_⟩
  have hshare : share s factor = fun _ => 0 := by
    funext unit
    rw [share, hname, if_neg (Option.some_ne_none unit).symm]
  rw [hv, hvalues, hshare, List.map_replicate, Int.zero_mul, Int.zero_ediv, List.map_const',
    Specification.arity, Specification.identifiers, List.length_map]

/-- The dimension of the base of a factor that stands for a base unit. -/
theorem baseDimension_of_unitName? (s : Specification) (factor : Factor) (name : String)
    (hname : unitName? factor = some name) :
    baseDimension s factor =
      match s.position? name with
      | none => .error (.unknownUnit name factor.span)
      | some position => (s.unitDimension position).mapError .dimension := by
  unfold unitName? at hname
  unfold baseDimension
  cases hbase : factor.base with
  | one => simp [hbase] at hname
  | unit found =>
    simp only [hbase] at hname
    split at hname
    · contradiction
    · next hunitless =>
      obtain rfl := Option.some.inj hname
      exact if_neg hunitless

/-- A position of a base unit lies below the arity. -/
theorem lt_arity_of_position? (s : Specification) (name : String) (position : Nat)
    (h : s.position? name = some position) : position < s.arity := by
  have hsome := s.getElem?_of_position? name position h
  have hlt := (List.getElem?_eq_some_iff.mp hsome).1
  rwa [Specification.identifiers, List.length_map] at hlt

/-- A factor without a failure of its own contributes its share to every base unit. -/
theorem contribution_ok (s : Specification) (hs : s.identifiers.Nodup) (factor : Factor)
    (hdenominator : 0 < factor.denominator.toInt) (h : ownFailure? s factor = none) :
    ∃ v, contribution s factor = .ok v ∧ v.values = s.identifiers.map (share s factor) := by
  cases hname : unitName? factor with
  | none => exact contribution_of_unitName?_eq_none s factor hdenominator hname
  | some name =>
    cases hposition : s.position? name with
    | none => simp [ownFailure?, hname, hposition] at h
    | some position =>
      have hlt := lt_arity_of_position? s name position hposition
      simp only [ownFailure?, hname, hposition] at h
      split at h
      · next hfits =>
        split at h
        · next hdvd =>
          obtain ⟨base, hunit, hvalues⟩ := unitDimension_ok s position hlt hfits.1
          have hbase : baseDimension s factor = .ok base := by
            simp only [baseDimension_of_unitName? s factor name hname, hposition, hunit,
              Except.mapError]
          obtain ⟨v, hcontribution, hv⟩ := contribution_of_baseDimension s factor base
            hdenominator hbase
            (hvalues ▸ forall_mem_replicate_set _ _ _ _ (by rw [Int.zero_mul]; decide) hfits.2)
            (hvalues ▸ forall_mem_replicate_set _ _ _ _ (by simp) hdvd)
          refine ⟨v, hcontribution, ?_⟩
          have hshare : share s factor = fun unit => if some name = some unit then
              scaled s factor / factor.denominator.toInt else 0 := by
            funext unit
            rw [share, hname]
          rw [hv, hvalues, List.map_set, List.map_replicate, Int.zero_mul, Int.zero_ediv,
            ← s.length_identifiers, replicate_set_eq_map _ hs name position
              (s.getElem?_of_position? name position hposition), hshare]
          rfl
        · contradiction
      · contradiction

/-- A power that fits is not divided by a denominator that does not divide it. -/
theorem root_powered (s : Specification) (factor : Factor) (position : Nat)
    (hposition : position < s.arity) (hdenominator : 0 < factor.denominator.toInt)
    (hfits : Fits (scaled s factor)) (hdvd : ¬ factor.denominator.toInt ∣ scaled s factor) :
    (powered s factor position).root factor.denominator =
      .error (.notDivisible (powered s factor position) factor.denominator position) := by
  have hne : factor.denominator ≠ 0 := by
    rintro hzero
    rw [hzero] at hdenominator
    contradiction
  have hofInt : (Int32.ofInt (scaled s factor)).toInt = scaled s factor := by
    obtain ⟨e, -, hvalue⟩ := exists_exponent _ hfits
    rw [← hvalue, Int32.ofInt_toInt]
  have hsplit : (powered s factor position).exponents =
      List.replicate position 0 ++ Int32.ofInt (scaled s factor) ::
        List.replicate (s.arity - (position + 1)) 0 := by
    rw [powered, List.set_eq_take_append_cons_drop, if_pos (by simpa using hposition),
      List.take_replicate, List.drop_replicate, Nat.min_eq_left (Nat.le_of_lt hposition)]
  have hroots := Dimension.roots_notDivisible (powered s factor position) factor.denominator
    (by omega) 0 (List.replicate position 0) (Int32.ofInt (scaled s factor))
    (List.replicate (s.arity - (position + 1)) 0)
    (fun n hn => by
      rw [List.map_replicate, Int32.toInt_zero] at hn
      rw [List.eq_of_mem_replicate hn]
      exact Int.dvd_zero _)
    (by rwa [hofInt])
  rw [Dimension.root, if_neg hne, hsplit, hroots, Nat.zero_add, List.length_replicate]
  rfl

/-- A factor with a failure of its own fails for this reason. -/
theorem contribution_error (s : Specification) (factor : Factor)
    (hdenominator : 0 < factor.denominator.toInt) (cause : NoValue)
    (h : ownFailure? s factor = some cause) : contribution s factor = .error cause := by
  cases hname : unitName? factor with
  | none => simp [ownFailure?, hname] at h
  | some name =>
    have hbase := baseDimension_of_unitName? s factor name hname
    cases hposition : s.position? name with
    | none =>
      simp only [ownFailure?, hname, hposition, Option.some.injEq] at h
      simp only [contribution, hbase, hposition, bind, Except.bind, h]
    | some position =>
      have hlt := lt_arity_of_position? s name position hposition
      simp only [ownFailure?, hname, hposition] at h hbase
      by_cases hroot : Fits s.allowedRoot.toNat
      · obtain ⟨base, hunit, hvalues⟩ := unitDimension_ok s position hlt hroot
        by_cases hpower : Fits (scaled s factor)
        · have hdvd : ¬ factor.denominator.toInt ∣ scaled s factor := by
            intro hdvd
            rw [if_pos ⟨hroot, hpower⟩, if_pos hdvd] at h
            contradiction
          rw [if_pos ⟨hroot, hpower⟩, if_neg hdvd, Option.some.injEq] at h
          obtain ⟨raised, hraise, hraised⟩ := Dimension.power_ok base factor.numerator
            (hvalues ▸ forall_mem_replicate_set _ _ _ _ (by rw [Int.zero_mul]; decide) hpower)
          -- the power is the dimension that the failure names
          have heq : raised = powered s factor position := by
            apply Dimension.values_injective
            rw [hraised, hvalues, List.map_set, List.map_replicate, Int.zero_mul,
              values_powered s factor position hpower]
            rfl
          have herror := root_powered s factor position hlt hdenominator hpower hdvd
          simp only [contribution, hbase, hunit, hraise, heq, herror, bind, Except.bind,
            Except.mapError, h]
        · have hraise : base.power factor.numerator = .error .overflow := by
            refine Dimension.power_overflow base factor.numerator fun hall => hpower ?_
            refine hall s.allowedRoot.toNat ?_
            rw [hvalues]
            exact List.mem_set (by rwa [List.length_replicate]) _
          rw [if_neg fun hboth => hpower hboth.2, Option.some.injEq] at h
          simp only [contribution, hbase, hunit, hraise, bind, Except.bind, Except.mapError, h]
      · have hunit := unitDimension_overflow s position hlt hroot
        rw [if_neg fun hboth => hroot hboth.1, Option.some.injEq] at h
        simp only [contribution, hbase, hunit, bind, Except.bind, Except.mapError, h]

end Expression

end UnitSystems
