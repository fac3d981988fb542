/-!
# Decimal integers

Integers are written in decimal with a minus sign in front of a negative one, and read back from
an optional minus sign and digits. Leading zeros do not change the value that is read.
-/

namespace UnitSystems.Text

/-- The integer that an optional minus sign and decimal digits denote. -/
def integerValue : List Char → Int
  | '-' :: digits => -(Nat.ofDigitChars 10 digits 0 : Int)
  | digits => (Nat.ofDigitChars 10 digits 0 : Int)

/-- The items with a comma and a space between them. -/
def listed (items : List String) : String :=
  ", ".intercalate items

end UnitSystems.Text
