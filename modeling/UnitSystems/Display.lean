import UnitSystems.Decimal.Shortest
import UnitSystems.Specification

/-!
# Dimensions as text

A dimension is shown by the contributions of its base units, in declaration order and without a
separator. A zero exponent shows nothing, one whole unit shows the bare symbol, and any other
exponent shows its quotient by the allowed root.
-/

namespace UnitSystems

/-- The contribution of one base unit, its exponent given in fractions of the root. -/
def formatExponent (symbol : String) (exponent : Int32) (root : UInt32) : String :=
  if exponent.toInt = 0 then ""
  else if exponent.toInt = root.toNat then symbol
  else symbol ++ "^" ++ Decimal.quotientText exponent.toInt root.toNat

/-- The contributions of base units, one after the other. -/
def formatExponents (root : UInt32) : List BaseUnit → List Int32 → String
  | unit :: units, exponent :: exponents =>
    formatExponent unit.symbol exponent root ++ formatExponents root units exponents
  | _, _ => ""

/-- The text of a dimension of a system. -/
def Specification.format (s : Specification) (d : Dimension) : Except DimensionError String :=
  if d.arity = s.arity then .ok (formatExponents s.allowedRoot s.baseUnits d.exponents)
  else .error (.arityMismatch s.arity d.arity)

end UnitSystems
