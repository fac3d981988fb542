/-!
# Sets of characters given by ranges

A property of characters is stored as the ascending list of the closed ranges of code points
that have it. Membership asks each range in turn.
-/

namespace UnitSystems.Text

/-- A character belongs to a table when one of its ranges holds the code point. -/
def within (ranges : List (Nat × Nat)) (c : Char) : Bool :=
  ranges.any fun range => range.1 ≤ c.toNat && c.toNat ≤ range.2

end UnitSystems.Text
