import UnitSystems.Text.Extending
import UnitSystems.Text.Unprinted

/-!
# Quoted text

A text stands between double quotes as a literal of the generated language. The quote, the
backslash and four controls have short escapes. A character that extends the one before it or
has no printed form is shown by its code point, and every other character stands for itself.
-/

namespace UnitSystems.Text

/-- The code point in lower-case hexadecimal digits, without leading zeros. -/
def hexadecimal (c : Char) : List Char :=
  Nat.toDigits 16 c.toNat

/-- An escape by code point. -/
def escapeByNumber (c : Char) : List Char :=
  ['\\', 'u', '\x7b'] ++ hexadecimal c ++ ['\x7d']

/-- How one character stands between double quotes. -/
def escapeChar (c : Char) : List Char :=
  if c = '\x00' then ['\\', '0']
  else if c = '\t' then ['\\', 't']
  else if c = '\r' then ['\\', 'r']
  else if c = '\n' then ['\\', 'n']
  else if c = '\\' then ['\\', '\\']
  else if c = '"' then ['\\', '"']
  else if isExtending c || isUnprinted c then escapeByNumber c
  else [c]

/-- The text as a literal, with its quotes. -/
def quoted (text : String) : String :=
  String.ofList ('"' :: (text.toList.flatMap escapeChar ++ ['"']))

end UnitSystems.Text
