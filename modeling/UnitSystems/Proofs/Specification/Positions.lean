import UnitSystems.Generated.Sections
import UnitSystems.Proofs.Expression.Contribution

/-!
# Base units by name and by position

A valid system finds each base unit under its name, at its own position, and finds nothing else.
The dimension at the position is the one that the generated type of the unit spells, unless there
is none: the root is a 32-bit number without a sign and exponents have a sign, so limits that are
raised far enough admit a root that is no exponent.
-/

namespace UnitSystems

namespace Specification

/-- Systems that find their base units, and nothing else, under their names. -/
structure FindsUnits (s : Specification) : Prop where
  position : ∀ (i : Nat) (name : String),
    s.position? name = some i ↔ s.identifiers[i]? = some name
  unknown : ∀ name, s.position? name = none ↔ name ∉ s.identifiers

/-- Systems whose base units, and nothing beyond them, have dimensions: the root at the position of
the unit and zero elsewhere, as in the arguments of the generated type of the unit. -/
structure HasUnits (s : Specification) : Prop where
  unit : ∀ i < s.arity, ∃ v, s.unitDimension i = .ok v ∧
    v.values = (List.replicate s.arity 0).set i (s.allowedRoot.toNat : Int) ∧
    (Generated.unitType s i).arguments = v.values.map Generated.Argument.exponent
  beyond : ∀ i, (∀ v, s.unitDimension i ≠ .ok v) ↔ s.arity ≤ i

/-- Among distinct names, each one is found where it stands. -/
theorem position?_eq_some_iff (s : Specification) (hs : s.identifiers.Nodup) (name : String)
    (i : Nat) : s.position? name = some i ↔ s.identifiers[i]? = some name := by
  refine ⟨s.getElem?_of_position? name i, fun h => ?_⟩
  obtain ⟨hlt, hname⟩ := List.getElem?_eq_some_iff.mp h
  rw [position?, List.findIdx?_eq_some_iff_getElem]
  refine ⟨hlt, by simpa using hname, fun j hj hfound => ?_⟩
  have hearlier : s.identifiers[j] = s.identifiers[i] := by
    rw [hname]
    simpa using hfound
  exact Nat.ne_of_lt hj (hs.getElem_inj_iff.mp hearlier)

/-- No dimension belongs to a position beyond the base units. -/
theorem unitDimension_beyond (s : Specification) (i : Nat) (h : s.arity ≤ i) :
    s.unitDimension i = .error (.positionOutOfRange i s.arity) := by
  rw [unitDimension, Dimension.unit, if_pos h]

/-- The generated type of a base unit has the root at its position and zero elsewhere. -/
theorem arguments_unitType (s : Specification) (i : Nat) : (Generated.unitType s i).arguments =
    ((List.replicate s.arity 0).set i (s.allowedRoot.toNat : Int)).map
      Generated.Argument.exponent := by
  rw [Generated.unitType, Generated.typeOf, List.map_set, List.map_replicate]

/-- The base units have dimensions when the root is an exponent. -/
theorem hasUnits_of_fits (s : Specification) (h : Fits s.allowedRoot.toNat) : s.HasUnits where
  unit i hi := by
    obtain ⟨v, hv, hvalues⟩ := Expression.unitDimension_ok s i hi h
    exact ⟨v, hv, hvalues, by rw [hvalues, arguments_unitType]⟩
  beyond i := by
    constructor
    · intro hnone
      by_contra hi
      obtain ⟨v, hv, -⟩ := Expression.unitDimension_ok s i (Nat.not_le.mp hi) h
      exact hnone v hv
    · intro hi v hv
      rw [s.unitDimension_beyond i hi] at hv
      contradiction

end Specification

/-- A valid system finds its base units under their names, whatever the limits. They have the
dimensions that their generated types spell exactly when the root is an exponent. With any other
root, the dimension of every base unit overflows. -/
theorem hasUnits_iff (d : Definition) (limits : Limits) (s : Specification)
    (hs : d.validate limits = .ok s) :
    s.FindsUnits ∧ (s.HasUnits ↔ s.allowedRoot.toNat ≤ Int32.maxValue.toInt) ∧
      (Int32.maxValue.toInt < s.allowedRoot.toNat →
        ∀ i < s.arity, s.unitDimension i = .error .overflow) := by
  have hvalid := d.isValid_of_validate limits s hs
  have hfits : Fits s.allowedRoot.toNat ↔ s.allowedRoot.toNat ≤ Int32.maxValue.toInt := by
    rw [Fits, Int32.toInt_minValue]
    omega
  have hoverflow (hlarge : Int32.maxValue.toInt < s.allowedRoot.toNat) (i : Nat)
      (hi : i < s.arity) : s.unitDimension i = .error .overflow :=
    Expression.unitDimension_overflow s i hi (mt hfits.mp (Int.not_le.mpr hlarge))
  refine ⟨⟨fun i name => s.position?_eq_some_iff hvalid.nodup name i, s.position?_eq_none_iff⟩,
    ⟨fun h => ?_, fun h => s.hasUnits_of_fits (hfits.mpr h)⟩, hoverflow⟩
  by_contra hlarge
  have hpositive : 0 < s.arity :=
    s.length_identifiers ▸ List.length_pos_iff.mpr hvalid.nonempty
  obtain ⟨v, hv, -⟩ := h.unit 0 hpositive
  rw [hoverflow (Int.not_le.mp hlarge) 0 hpositive] at hv
  contradiction

/-- Limits on nothing but the number of base units. -/
def anyRoot : Limits where
  maxAllowedRoot := 4294967295

/-- A system of two base units with a root of choice. -/
def rootedDefinition (root : Int64) : Definition :=
  { motionDefinition with allowedRoot := root }

/-- The largest exponent is a root with which base units have dimensions. -/
theorem hasUnits_iff_largest : ∃ s, (rootedDefinition 2147483647).validate anyRoot = .ok s ∧
    s.FindsUnits ∧ s.HasUnits := by
  have hs : (rootedDefinition 2147483647).validate anyRoot =
      .ok ((rootedDefinition 2147483647).toSpecification 2147483647) :=
    eq_ok_of_toOption _ _ (by decide +kernel)
  obtain ⟨hfinds, hhas, -⟩ := hasUnits_iff (rootedDefinition 2147483647) anyRoot _ hs
  exact ⟨_, hs, hfinds, hhas.mpr (by decide)⟩

/-- Nothing is wrong with the next larger root, and the first base unit, which is found under its
name, has no dimension. -/
theorem unit_without_dimension : ∃ s, (rootedDefinition 2147483648).validate anyRoot = .ok s ∧
    s.position? "Metre" = some 0 ∧ 0 < s.arity ∧ ∀ v, s.unitDimension 0 ≠ .ok v :=
  ⟨(rootedDefinition 2147483648).toSpecification 2147483648,
    eq_ok_of_toOption _ _ (by decide +kernel), by decide, by decide, by
      rw [show ((rootedDefinition 2147483648).toSpecification 2147483648).unitDimension 0 =
        .error .overflow from rfl]
      nofun⟩

end UnitSystems
