import UnitSystems.Definition
import UnitSystems.Dimension
import UnitSystems.Json.Value

/-!
# Definitions as JSON

A definition is an object whose members are its fields, without its source and its span. The
output is left out when it is not declared, and so are extra constants when there are none.
Read back, the name and the three lists must be there, unknown keys are passed over and a known
key may stand only once. A list with the fields in their order is read like the object.
-/

namespace UnitSystems

namespace ExtraConstant

/-- The fields of an extra constant. -/
def fields : List String := ["name", "expression"]

/-- An extra constant as an object. -/
def toJson (e : ExtraConstant) : Json :=
  .object [("name", .string e.name), ("expression", .string e.expression)]

end ExtraConstant

namespace Json

/-- The members with the given keys, of an object or of a list in the order of the keys. No key
may stand twice. -/
def fields? (keys : List String) : Json → Option (List (String × Json))
  | .object members =>
    let known := members.filter fun member => keys.contains member.1
    if (known.map Prod.fst).Nodup then some known else none
  | .array items => if items.length ≤ keys.length then some (keys.zip items) else none
  | _ => none

/-- A field that must be there. -/
def required? {α : Type} (key : String) (read : Json → Option α)
    (members : List (String × Json)) : Option α :=
  (members.lookup key).bind read

/-- A field with a value for the case that it is not there. -/
def optional? {α : Type} (key : String) (read : Json → Option α) (absent : α)
    (members : List (String × Json)) : Option α :=
  match members.lookup key with
  | some value => read value
  | none => some absent

/-- A value that may be null. -/
def nullable? {α : Type} (read : Json → Option α) : Json → Option (Option α)
  | .null => some none
  | value => (read value).map some

/-- An integer of 64 bits. -/
def asInt64? (value : Json) : Option Int64 :=
  value.asInteger?.bind allowedRoot?

end Json

/-- The extra constant that a value denotes. -/
def ExtraConstant.ofJson? (value : Json) : Option ExtraConstant := do
  let members ← value.fields? fields
  let name ← Json.required? "name" Json.asString? members
  let expression ← Json.required? "expression" Json.asString? members
  return ⟨name, expression⟩

namespace Definition

/-- The fields of a definition, in the order in which they are declared. -/
def fields : List String :=
  ["name", "output", "units", "symbols", "constants", "scalarType", "identityLiteral",
    "unitlessConstant", "allowedRoot", "extraConstants"]

/-- The members of a definition. -/
def members (d : Definition) : List (String × Json) :=
  [("name", .string d.name)] ++
    (match d.output with
      | some output => [("output", .string output)]
      | none => []) ++
    [("units", .strings d.units),
      ("symbols", .strings d.symbols),
      ("constants", .strings d.constants),
      ("scalarType", .string d.scalarType),
      ("identityLiteral", .string d.identityLiteral),
      ("unitlessConstant", .string d.unitlessConstant),
      ("allowedRoot", .integer d.allowedRoot.toInt)] ++
    (if d.extraConstants.isEmpty then []
      else [("extraConstants", .array (d.extraConstants.map ExtraConstant.toJson))])

/-- A definition as an object. -/
def toJson (d : Definition) : Json :=
  .object d.members

/-- The definition that a value denotes. -/
def ofJson? (value : Json) : Option Definition := do
  let members ← value.fields? fields
  let name ← Json.required? "name" Json.asString? members
  let output ← Json.optional? "output" (Json.nullable? Json.asString?) none members
  let units ← Json.required? "units" (Json.listOf? Json.asString?) members
  let symbols ← Json.required? "symbols" (Json.listOf? Json.asString?) members
  let constants ← Json.required? "constants" (Json.listOf? Json.asString?) members
  let unset : Definition := { name }
  let scalarType ← Json.optional? "scalarType" Json.asString? unset.scalarType members
  let identityLiteral ←
    Json.optional? "identityLiteral" Json.asString? unset.identityLiteral members
  let unitlessConstant ←
    Json.optional? "unitlessConstant" Json.asString? unset.unitlessConstant members
  let allowedRoot ← Json.optional? "allowedRoot" Json.asInt64? unset.allowedRoot members
  let extraConstants ←
    Json.optional? "extraConstants" (Json.listOf? ExtraConstant.ofJson?) [] members
  return { name, output, units, symbols, constants, scalarType, identityLiteral,
           unitlessConstant, allowedRoot, extraConstants }

end Definition

namespace Dimension

/-- A dimension as a list of integers. -/
def toJson (d : Dimension) : Json :=
  .array (d.exponents.map fun e => .integer e.toInt)

/-- The dimension that a value denotes. -/
def ofJson? (value : Json) : Option Dimension :=
  (Json.listOf? (fun item => item.asInteger?.bind exponent?) value).map Dimension.mk

end Dimension

end UnitSystems
