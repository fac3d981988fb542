import UnitSystems.Text.Ranges

/-!
# White space and control characters

The Unicode property `White_Space` decides what trimming removes at the two ends of a text.
It is wider than the blanks of a definition file, which are the space and the tab alone.
-/

namespace UnitSystems.Text

/-- Characters with the property `White_Space`. -/
def whiteSpaceRanges : List (Nat × Nat) :=
  [(0x9, 0xd), (0x20, 0x20), (0x85, 0x85), (0xa0, 0xa0), (0x1680, 0x1680), (0x2000, 0x200a),
    (0x2028, 0x2029), (0x202f, 0x202f), (0x205f, 0x205f), (0x3000, 0x3000)]

/-- White space in the sense of Unicode. -/
def isWhiteSpace (c : Char) : Bool :=
  within whiteSpaceRanges c

/-- Control characters: the two blocks of the category `Cc`. -/
def isControl (c : Char) : Bool :=
  c.toNat < 0x20 || (0x7f ≤ c.toNat && c.toNat ≤ 0x9f)

/-- The text without the white space at its start. -/
def trimStart (text : List Char) : List Char :=
  text.dropWhile isWhiteSpace

/-- The text without the white space at its end. -/
def trimEnd (text : List Char) : List Char :=
  (trimStart text.reverse).reverse

/-- The text without the white space at both ends. -/
def trim (text : List Char) : List Char :=
  trimEnd (trimStart text)

/-- A string without the white space at both ends. -/
def trimmed (text : String) : String :=
  String.ofList (trim text.toList)

/-- Whether trimming leaves nothing of a string. -/
def isAllWhite (text : String) : Bool :=
  (trim text.toList).isEmpty

end UnitSystems.Text
