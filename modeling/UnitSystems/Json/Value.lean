/-!
# JSON values

Numbers are told apart by how they are written: an integer has neither a fraction nor an exponent
and is not the negative zero. What no reader of this library takes is kept as it was written:
every other number, and strings in which an escape leaves half of a surrogate pair.
-/

namespace UnitSystems

/-- A JSON value. The members of an object keep their order and may repeat a key. -/
inductive Json
  | null
  | bool (value : Bool)
  | integer (value : Int)
  | string (value : String)
  /-- A value that is only kept as it was written. -/
  | other (literal : String)
  | array (items : List Json)
  | object (members : List (String × Json))

namespace Json

/-- A list of strings. -/
def strings (items : List String) : Json :=
  .array (items.map .string)

/-- The value as a string. -/
def asString? : Json → Option String
  | .string value => some value
  | _ => none

/-- The value as an integer. -/
def asInteger? : Json → Option Int
  | .integer value => some value
  | _ => none

/-- The value as a truth value. -/
def asBool? : Json → Option Bool
  | .bool value => some value
  | _ => none

/-- The value as a list. -/
def asArray? : Json → Option (List Json)
  | .array items => some items
  | _ => none

/-- The value as a list, each item taken by one reader. -/
def listOf? {α : Type} (read : Json → Option α) : Json → Option (List α)
  | .array items => items.mapM read
  | _ => none

end Json

end UnitSystems
