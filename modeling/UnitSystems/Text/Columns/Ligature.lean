import UnitSystems.Text.Columns.Single

/-!
# Letters that share a column

In some scripts a group of letters is written as one shape: lam and alef in Arabic, alef and lamed
in Hebrew, tone letters of Lisu, consonants of Tifinagh, a Khmer consonant under another one, and a
few more. A text is read from its end here, so a group is entered at its last letter, and reading on
decides whether the group is complete. Characters that are ignored do not break a group up.
-/

namespace UnitSystems.Text

/-- The last part of a group that may share a column, as far as it has been read from the end. -/
inductive Tail
  /-- Lamed of Hebrew. -/
  | lamed
  /-- Ya of Buginese. -/
  | ya
  /-- The vowel i, a joiner and ya of Buginese. -/
  | vowelAndYa
  /-- A consonant of Tifinagh. -/
  | consonant
  /-- The joiner and a consonant of Tifinagh. -/
  | joinerAndConsonant
  /-- One of the last two tone letters of Lisu. -/
  | tone
  /-- The letter i of Old Turkic. -/
  | turkicI
  /-- A Khmer letter that can stand under another one. -/
  | subscript
  deriving DecidableEq, Repr

/-- Forms of lam. -/
def lams : List (Nat × Nat) :=
  [(0x644, 0x644), (0x6b5, 0x6b8), (0x76a, 0x76a), (0x8a6, 0x8a6), (0x8c7, 0x8c7)]

/-- Forms of alef. -/
def alefs : List (Nat × Nat) :=
  [(0x622, 0x623), (0x625, 0x625), (0x627, 0x627), (0x671, 0x673), (0x675, 0x675), (0x773, 0x774),
    (0x870, 0x882)]

/-- Consonants of Tifinagh. -/
def tifinagh : List (Nat × Nat) := [(0x2d31, 0x2d65), (0x2d6f, 0x2d6f)]

/-- Tone letters of Lisu that another one can follow in the same column. -/
def firstTones : List (Nat × Nat) := [(0xa4f8, 0xa4fb)]

/-- Tone letters of Lisu that can follow another one in its column. -/
def lastTones : List (Nat × Nat) := [(0xa4fc, 0xa4fd)]

/-- Khmer letters that can stand under another one. -/
def subscripts : List (Nat × Nat) :=
  [(0x1780, 0x1782), (0x1784, 0x1787), (0x1789, 0x178c), (0x178e, 0x1793), (0x1795, 0x1798),
    (0x179b, 0x179d), (0x17a0, 0x17a0), (0x17a2, 0x17a2), (0x17a7, 0x17a7), (0x17ab, 0x17ac),
    (0x17af, 0x17af)]

/-- Marks that are ignored inside a group, the joiner among them. -/
def ignoredMarks : List (Nat × Nat) :=
  [(0x34f, 0x34f), (0x17b4, 0x17b5), (0x180b, 0x180d), (0x180f, 0x180f), (0x200d, 0x200d),
    (0xfe00, 0xfe0f), (0xe0100, 0xe01ef)]

/-- Characters without a column that keep the letters around them apart. -/
def barriers : List (Nat × Nat) := [
  (0x605, 0x605), (0x890, 0x891), (0x8e2, 0x8e2), (0x9be, 0x9be), (0x9d7, 0x9d7), (0xb3e, 0xb3e),
  (0xb57, 0xb57), (0xbbe, 0xbbe), (0xbd7, 0xbd7), (0xcc0, 0xcc0), (0xcc2, 0xcc2), (0xcc7, 0xcc8),
  (0xcca, 0xccb), (0xcd5, 0xcd6), (0xd3e, 0xd3e), (0xd4e, 0xd4e), (0xd57, 0xd57), (0xdcf, 0xdcf),
  (0xddf, 0xddf), (0x1160, 0x11ff), (0x1715, 0x1715), (0x1734, 0x1734), (0x180e, 0x180e),
  (0x1b35, 0x1b35), (0x1b3b, 0x1b3b), (0x1b3d, 0x1b3d), (0x1b43, 0x1b44), (0x1baa, 0x1baa),
  (0x1bf2, 0x1bf3), (0x200c, 0x200d), (0x2065, 0x2069), (0x302e, 0x302f), (0x3164, 0x3164),
  (0xa8fa, 0xa8fa), (0xa953, 0xa953), (0xa9c0, 0xa9c0), (0xd7b0, 0xd7c6), (0xd7cb, 0xd7fb),
  (0xffa0, 0xffa0), (0xfff0, 0xfff8), (0x111c0, 0x111c0), (0x111c2, 0x111c3), (0x11235, 0x11235),
  (0x1133e, 0x1133e), (0x1134d, 0x1134d), (0x11357, 0x11357), (0x113b8, 0x113b8), (0x113c2, 0x113c2),
  (0x113c5, 0x113c5), (0x113c7, 0x113c9), (0x113cf, 0x113cf), (0x113d1, 0x113d1), (0x114b0, 0x114b0),
  (0x114bd, 0x114bd), (0x115af, 0x115af), (0x116b6, 0x116b6), (0x11930, 0x11930), (0x1193d, 0x1193d),
  (0x1193f, 0x1193f), (0x11941, 0x11941), (0x11a84, 0x11a89), (0x11d46, 0x11d46), (0x11f02, 0x11f02),
  (0x11f41, 0x11f41), (0x16ff0, 0x16ff1), (0x1d165, 0x1d166), (0x1d16d, 0x1d172), (0xe0000, 0xe0000),
  (0xe0002, 0xe001f), (0xe0080, 0xe00ff), (0xe01f0, 0xe0fff)]

/-- Code point of the joiner. -/
def joiner : Nat := 0x200d

/-- A character that lam and alef join across. -/
def isJoinedAcross (c : Char) : Bool :=
  singleColumns c == 0 && !within barriers c

/-- The group that a character may be the last letter of. -/
def tail? (c : Char) : Option Tail :=
  if c.toNat = 0x5dc then some .lamed
  else if c.toNat = 0x1a10 then some .ya
  else if within tifinagh c then some .consonant
  else if within lastTones c then some .tone
  else if c.toNat = 0x10c03 then some .turkicI
  else if within subscripts c then some .subscript
  else none

/-- What one more character before a tail adds to the columns, and the tail that it makes, where
the character belongs to the group. The second argument says whether a joiner was read. -/
def Tail.extend (c : Char) : Tail → Bool → Option (Int × Option Tail)
  | .lamed, true => if c.toNat = 0x5d0 then some (0, none) else none
  | .ya, true => if c.toNat = 0x1a17 then some (0, some .vowelAndYa) else none
  | .vowelAndYa, _ => if c.toNat = 0x1a15 then some (0, none) else none
  | .consonant, joined =>
    if c.toNat = tifinaghJoiner then some (1, some .joinerAndConsonant)
    else if joined && within tifinagh c then some (0, none)
    else none
  | .joinerAndConsonant, _ => if within tifinagh c then some (-1, none) else none
  | .tone, _ => if within firstTones c then some (0, none) else none
  | .turkicI, true => if c.toNat = 0x10c32 then some (0, none) else none
  | .subscript, _ => if c.toNat = 0x17d2 then some (-1, none) else none
  | _, _ => none

end UnitSystems.Text
