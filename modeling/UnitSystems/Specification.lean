import UnitSystems.Definition
import UnitSystems.Dimension

/-!
# Specifications

A specification is a unit system that passed every check: its base units come as triples, there
is at least one of them, and all names can stand in a generated file.
-/

namespace UnitSystems

/-- A base unit: the name of its type, its printed symbol and its constant. -/
structure BaseUnit where
  identifier : String
  symbol : String
  constant : String
  deriving DecidableEq, Repr

/-- A unit system that a file can be generated from. -/
structure Specification where
  name : String
  outputTarget : String
  baseUnits : List BaseUnit
  scalarType : String
  identityLiteral : String
  unitlessConstant : String
  allowedRoot : UInt32
  extraConstants : List ExtraConstant
  deriving DecidableEq, Repr

namespace Specification

/-- Number of exponents in every dimension of the system. -/
def arity (s : Specification) : Nat :=
  s.baseUnits.length

/-- Names of the base units, in order. -/
def identifiers (s : Specification) : List String :=
  s.baseUnits.map (·.identifier)

/-- The position of the base unit with a name. -/
def position? (s : Specification) (name : String) : Option Nat :=
  s.identifiers.findIdx? (· == name)

/-- The dimension of a plain number. -/
def dimensionless (s : Specification) : Dimension :=
  Dimension.dimensionless s.arity

/-- The dimension of the whole base unit at a position. -/
def unitDimension (s : Specification) (position : Nat) : Except DimensionError Dimension :=
  Dimension.unit s.arity position s.allowedRoot

end Specification

end UnitSystems
