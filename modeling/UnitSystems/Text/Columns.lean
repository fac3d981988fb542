import UnitSystems.Text.Columns.Emoji
import UnitSystems.Text.Columns.Ligature

/-!
# Terminal columns

The columns that one line takes on a terminal. They are the sum of the columns of its characters,
except where characters are shown together: as one picture, as one flag or as one group of letters.
A selector turns the character before it into a picture of two columns or into text of one, and two
pictures with a joiner between them are one. The line is read from its end, and what has been read
is remembered as far as it changes the columns of the characters before it.
-/

namespace UnitSystems.Text

/-- What the part of a line that has been read begins with. -/
inductive Following
  /-- Nothing that changes the character before it. -/
  | plain
  /-- A form of alef. -/
  | alef
  /-- The last part of a group of letters, and whether a joiner stands before it. -/
  | group (tail : Tail) (linked : Bool)
  /-- The vowel e of Kirat Rai. -/
  | vowelE
  /-- The vowel ai of Kirat Rai. -/
  | vowelAi
  /-- A skin tone. -/
  | skinTone
  /-- A single letter of a flag. -/
  | flagLetter
  /-- Several letters of flags. -/
  | flagLetters
  /-- A picture. -/
  | picture
  /-- A joiner and a picture. -/
  | joined
  /-- A keycap before a joiner and a picture. -/
  | joinedKeycap
  /-- Tags that end a flag before a joiner and a picture: their letters and their digits. -/
  | joinedTags (letters digits : Nat)
  /-- A letter of a flag before a joiner and a picture. -/
  | joinedLetter
  /-- An even number of letters of flags before a joiner and a picture. -/
  | joinedEven
  /-- An odd number of letters of flags, more than one, before a joiner and a picture. -/
  | joinedOdd
  deriving DecidableEq, Repr

/-- A character that says how the one before it is shown. -/
inductive Selector
  | asPicture
  | asText
  /-- The full-width form of a quotation mark. -/
  | asWide
  deriving DecidableEq, Repr

/-- What has been read of a line, from its end: what it begins with, and a selector before that. -/
structure Context where
  following : Following := .plain
  selector : Option Selector := none
  deriving DecidableEq, Repr

namespace Following

/-- Whether selectors leave a group of letters in place. -/
def isGroup : Following → Bool
  | alef => true
  | group _ _ => true
  | _ => false

/-- Whether a picture before a joiner may still follow, chosen by a selector. -/
def isJoined : Following → Bool
  | joined => true
  | joinedKeycap => true
  | _ => false

/-- What remains when a selector did not apply to the character before it. -/
def kept (f : Following) : Following :=
  if f.isGroup then f else plain

/-- What remains when a selector is read before it. -/
def select (f : Following) : Selector → Following
  | .asPicture => if f.isJoined then f else f.kept
  | _ => f.kept

/-- Tags that end a flag, with one more before them. -/
def addTag (c : Char) (letters digits : Nat) : Option (Int × Following) :=
  if within tagLetters c && digits == 0 && letters < 6 then some (0, joinedTags (letters + 1) 0)
  else if within tagDigits c && (if digits == 0 then letters < 5 else digits < 3) then
    some (0, joinedTags letters (digits + 1))
  else if c.toNat = 0x1f3f4 ∧ (digits = 3 ∨ digits = 0 ∧ 3 ≤ letters) then some (0, picture)
  else none

/-- A joiner and a picture, with one more character before them. -/
def addJoined (c : Char) : Option (Int × Following) :=
  if c.toNat = 0x20e3 then some (0, joinedKeycap)
  else if within regionalIndicators c then some (1, joinedLetter)
  else if within skinTones c then some (0, skinTone)
  else if c.toNat = 0xe007f then some (0, joinedTags 0 0)
  else if within pictures c then some (0, picture)
  else none

/-- Groups of letters, with one more character before them. -/
def addToGroup (c : Char) (tail : Tail) (linked : Bool) : Option (Int × Following) :=
  if c.toNat = joiner then some (0, group tail true)
  else if within ignoredMarks c then some (0, group tail linked)
  else
    (tail.extend c linked).map fun (columns, longer) =>
      (columns, match longer with
        | some tail => group tail true
        | none => plain)

/-- What one more character adds to the columns and what the line then begins with, where the
character is shown together with what follows it. -/
def add (c : Char) : Following → Option (Int × Following)
  | alef =>
    if within lams c then some (0, plain)
    else if isJoinedAcross c then some (0, alef)
    else none
  | group tail linked => addToGroup c tail linked
  | vowelE =>
    if c.toNat = 0x16d63 ∨ c.toNat = 0x16d69 then some (0, plain)
    else if c.toNat = 0x16d67 then some (0, vowelAi)
    else if c.toNat = 0x16d68 then some (1, vowelE)
    else none
  | vowelAi => if c.toNat = 0x16d63 then some (0, plain) else none
  | skinTone =>
    if within tinted c then some (0, picture)
    else if c.toNat = joiner then some (0, joined)
    else none
  | flagLetter => if within regionalIndicators c then some (1, flagLetters) else none
  | flagLetters =>
    if within regionalIndicators c then some (1, flagLetters)
    else if c.toNat = joiner then some (0, joined)
    else none
  | picture => if c.toNat = joiner then some (0, joined) else none
  | joined => addJoined c
  | joinedTags letters digits => addTag c letters digits
  | joinedLetter => if within regionalIndicators c then some (-1, joinedEven) else none
  | joinedEven =>
    if within regionalIndicators c then some (3, joinedOdd)
    else if c.toNat = joiner then some (0, joined)
    else none
  | joinedOdd =>
    if within regionalIndicators c then some (-1, joinedEven)
    else if c.toNat = joiner then some (0, joined)
    else none
  | _ => none

/-- What a line begins with after a character that is shown by itself. -/
def start (c : Char) : Following :=
  if within pictures c then picture
  else if within skinTones c then skinTone
  else if within regionalIndicators c then flagLetter
  else if within alefs c then alef
  else if c.toNat = 0x16d67 then vowelE
  else if c.toNat = 0x16d68 then vowelAi
  else
    match tail? c with
    | some tail => group tail false
    | none => plain

end Following

/-- The selector that a character is. -/
def selector? (c : Char) : Option Selector :=
  if c.toNat = 0xfe0f then some .asPicture
  else if c.toNat = 0xfe0e then some .asText
  else if c.toNat = 0xfe01 then some .asWide
  else none

/-- Quotation marks with a full-width form. -/
def quotationMarks : List (Nat × Nat) := [(0x2018, 0x2019), (0x201c, 0x201d)]

namespace Context

/-- What a character that a selector applies to adds to the columns and leaves. -/
def choose (c : Char) (x : Context) : Option (Int × Following) :=
  match x.selector with
  | some .asPicture =>
    if within choosable c then some (if x.following.isJoined then 0 else 2, .picture) else none
  | some .asText => if isNarrowAsText c then some (1, .plain) else none
  | some .asWide => if within quotationMarks c then some (2, .plain) else none
  | none => none

/-- What follows once it is settled that no selector applies. -/
def settled (x : Context) : Following :=
  if x.selector.isSome then x.following.kept else x.following

/-- The columns that one more character before a part of a line adds, and what the line then begins
with. Characters up to the no-break space take a column whatever follows them. -/
def add (c : Char) (x : Context) : Int × Context :=
  match x.choose c with
  | some (columns, following) => (columns, { following })
  | none =>
    if c.toNat ≤ 0xa0 then (1, {})
    else
      match selector? c with
      | some selector => (0, ⟨x.settled.select selector, some selector⟩)
      | none =>
        match x.settled.add c with
        | some (columns, following) => (columns, { following })
        | none => (singleColumns c, { following := .start c })

end Context

/-- The columns of characters, and what they begin with. -/
def columnsFrom (text : List Char) : Int × Context :=
  text.foldr
    (fun c (columns, context) =>
      let (more, next) := context.add c
      (columns + more, next))
    (0, {})

/-- Columns that a line takes. -/
def columns (line : String) : Nat :=
  (columnsFrom line.toList).1.toNat

end UnitSystems.Text
