import UnitSystems.Span
import UnitSystems.Text.Lowercase

/-!
# Unit systems as their authors write them

A definition holds three parallel lists, the names, the symbols and the constants of the base
units. Nothing here makes the lists agree: that is what a specification adds.
-/

namespace UnitSystems

/-- The name of the dimensionless type, which every system has. -/
def unitlessName : String := "Unitless"

/-- A named constant with the text of its value, which is carried along unread. -/
structure ExtraConstant where
  name : String
  expression : String
  deriving DecidableEq, Repr

/-- The allowed root equal to an integer, if it fits in 64 bits. -/
def allowedRoot? (n : Int) : Option Int64 :=
  if Int64.minValue.toInt ≤ n ∧ n ≤ Int64.maxValue.toInt then some (Int64.ofInt n) else none

/-- A unit system before any check. -/
structure Definition where
  name : String
  output : Option String := none
  units : List String := []
  symbols : List String := []
  constants : List String := []
  scalarType : String := "f64"
  identityLiteral : String := "1.0"
  unitlessConstant : String := "one"
  allowedRoot : Int64 := 1
  extraConstants : List ExtraConstant := []
  source : Option String := none
  span : Option Span := none
  deriving DecidableEq, Repr

/-- Where the generated file goes: the declared output, else the name in lower case with the
extension of the generated language. -/
def Definition.outputTarget (d : Definition) : String :=
  d.output.getD (Text.lowercase d.name ++ ".rs")

end UnitSystems
