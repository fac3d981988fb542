import UnitSystems.Json.Value
import UnitSystems.Text.Numeral

/-!
# Writing JSON

Two layouts: everything on one line without blanks, and one item per line with two blanks of
indentation for each level. Only quotes, backslashes and the controls below the space are
escaped. Empty lists and objects stay on one line.
-/

namespace UnitSystems.Json

/-- A hexadecimal digit of a value below sixteen. -/
def hexDigit (n : Nat) : Char :=
  Nat.digitChar n

/-- How one character stands in a string. -/
def escapeChar (c : Char) : List Char :=
  if c = '"' then ['\\', '"']
  else if c = '\\' then ['\\', '\\']
  else if c = '\x08' then ['\\', 'b']
  else if c = '\x0c' then ['\\', 'f']
  else if c = '\n' then ['\\', 'n']
  else if c = '\r' then ['\\', 'r']
  else if c = '\t' then ['\\', 't']
  else if c.toNat < 0x20 then
    ['\\', 'u', '0', '0', hexDigit (c.toNat / 16), hexDigit (c.toNat % 16)]
  else [c]

/-- A string with its quotes. -/
def stringText (value : String) : String :=
  String.ofList ('"' :: (value.toList.flatMap escapeChar ++ ['"']))

mutual

/-- A value on one line. -/
def compact : Json → String
  | .null => "null"
  | .bool value => if value then "true" else "false"
  | .integer value => value.repr
  | .string value => stringText value
  | .other literal => literal
  | .array items => "[" ++ ",".intercalate (compactItems items) ++ "]"
  | .object members => "\x7b" ++ ",".intercalate (compactMembers members) ++ "\x7d"

/-- The items of a list, each on one line. -/
def compactItems : List Json → List String
  | [] => []
  | item :: rest => item.compact :: compactItems rest

/-- The members of an object, each on one line. -/
def compactMembers : List (String × Json) → List String
  | [] => []
  | (key, value) :: rest => (stringText key ++ ":" ++ value.compact) :: compactMembers rest

end

/-- A line break and the indentation of a level. -/
def newLine (level : Nat) : String :=
  "\n" ++ String.join (List.replicate level "  ")

/-- Lines between brackets, one level deeper than the brackets, or just the brackets. -/
def block (opening closing : String) (level : Nat) : List String → String
  | [] => opening ++ closing
  | lines =>
    opening ++ newLine (level + 1) ++ ("," ++ newLine (level + 1)).intercalate lines ++
      newLine level ++ closing

mutual

/-- A value over several lines, at a level of indentation. -/
def prettyAt : Nat → Json → String
  | _, .null => "null"
  | _, .bool value => if value then "true" else "false"
  | _, .integer value => value.repr
  | _, .string value => stringText value
  | _, .other literal => literal
  | level, .array items => block "[" "]" level (prettyItems (level + 1) items)
  | level, .object members => block "\x7b" "\x7d" level (prettyMembers (level + 1) members)

/-- The items of a list at a level of indentation. -/
def prettyItems : Nat → List Json → List String
  | _, [] => []
  | level, item :: rest => prettyAt level item :: prettyItems level rest

/-- The members of an object at a level of indentation. -/
def prettyMembers : Nat → List (String × Json) → List String
  | _, [] => []
  | level, (key, value) :: rest =>
    (stringText key ++ ": " ++ prettyAt level value) :: prettyMembers level rest

end

/-- A value over several lines. -/
def pretty (value : Json) : String :=
  prettyAt 0 value

end UnitSystems.Json
