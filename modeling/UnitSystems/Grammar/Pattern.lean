/-!
# Patterns of text

A pattern reads a text from its start. Choices are ordered, repetitions take as much as they can
and nothing that was taken is given back. What was read is kept as pieces, without loss: joined
together the pieces are exactly the text read. Named parts stand out as pieces of their own, a
leaf with its text or a branch with the pieces inside it.

Between the members of a spaced pattern any blanks and comments may stand. They are kept as
plain pieces, also before a member that reads nothing.
-/

namespace UnitSystems.Grammar

variable {ν : Type}

/-- What was read. -/
inductive Piece (ν : Type)
  /-- Text that belongs to no named part of its own. -/
  | plain (text : List Char)
  /-- A named part without named parts inside. -/
  | leaf (name : ν) (text : List Char)
  /-- A named part with the pieces that it consists of. -/
  | branch (name : ν) (parts : List (Piece ν))

mutual

/-- The text that a piece was read from. -/
def Piece.text : Piece ν → List Char
  | .plain text => text
  | .leaf _ text => text
  | .branch _ parts => Piece.textOf parts

/-- The text that pieces were read from. -/
def Piece.textOf : List (Piece ν) → List Char
  | [] => []
  | piece :: rest => piece.text ++ Piece.textOf rest

end

/-- The texts of two runs of pieces stand one after the other. -/
theorem Piece.textOf_append (first second : List (Piece ν)) :
    Piece.textOf (first ++ second) = Piece.textOf first ++ Piece.textOf second := by
  induction first with
  | nil => rfl
  | cons piece rest ih => simp [Piece.textOf, ih]

/-- The pieces read and the text that is left. -/
abbrev Reading (ν : Type) := List (Piece ν) × List Char

/-- Patterns over named parts. -/
inductive Pattern (ν : Type)
  /-- One character of a class. -/
  | one (isMember : Char → Bool)
  /-- All characters of a class up to the first other one. -/
  | run (isMember : Char → Bool)
  /-- A fixed text. -/
  | word (text : List Char)
  /-- The end of the text. -/
  | finish
  /-- Reads nothing, and only where the pattern cannot be read. -/
  | notAhead (p : Pattern ν)
  /-- The first of two patterns that can be read. -/
  | either (p q : Pattern ν)
  /-- A pattern or nothing. -/
  | optional (p : Pattern ν)
  /-- One pattern directly after another. -/
  | joined (p q : Pattern ν)
  /-- One pattern after another, with blanks and comments between them. -/
  | spaced (p q : Pattern ν)
  /-- A pattern as often as it can be read. -/
  | many (p : Pattern ν)
  /-- A pattern as often as it can be read, with blanks and comments in between. -/
  | spacedMany (p : Pattern ν)
  /-- A named part that keeps its text. -/
  | leaf (name : ν) (p : Pattern ν)
  /-- A named part that keeps its pieces. -/
  | branch (name : ν) (p : Pattern ν)

/-- Characters that separate words. -/
def isBlank (c : Char) : Bool :=
  c == ' ' || c == '\t'

/-- Characters that end a line. -/
def isLineBreak (c : Char) : Bool :=
  c == '\n' || c == '\r'

/-- Blanks and at most one comment, which runs to the end of the line, and the text after them. -/
def gap (text : List Char) : List Char × List Char :=
  let blanks := text.span isBlank
  match blanks.2 with
  | '#' :: _ =>
    let comment := blanks.2.span fun c => !isLineBreak c
    (blanks.1 ++ comment.1, comment.2)
  | _ => blanks

/-- A reader that first passes over blanks and a comment. -/
def afterGap (read : List Char → Option (Reading ν)) (text : List Char) : Option (Reading ν) :=
  let space := gap text
  (read space.2).map fun (pieces, rest) => (.plain space.1 :: pieces, rest)

/-- Repeated reading, at most once for every character of the first argument. -/
def rounds (read : List Char → Option (Reading ν)) : List Char → List Char → Reading ν
  | [], text => ([], text)
  | _ :: bound, text =>
    match read text with
    | none => ([], text)
    | some (pieces, rest) =>
      let more := rounds read bound rest
      (pieces ++ more.1, more.2)

/-- Reads a text from its start. -/
def Pattern.read : Pattern ν → List Char → Option (Reading ν)
  | .one isMember, text =>
    match text with
    | c :: rest => if isMember c then some ([.plain [c]], rest) else none
    | [] => none
  | .run isMember, text => some ([.plain (text.takeWhile isMember)], text.dropWhile isMember)
  | .word fixed, text => (fixed.isPrefixOf? text).map fun rest => ([.plain fixed], rest)
  | .finish, text => if text.isEmpty then some ([], text) else none
  | .notAhead p, text => if (p.read text).isSome then none else some ([], text)
  | .either p q, text =>
    match p.read text with
    | some reading => some reading
    | none => q.read text
  | .optional p, text => some ((p.read text).getD ([], text))
  | .joined p q, text =>
    match p.read text with
    | none => none
    | some (pieces, rest) =>
      (q.read rest).map fun (more, last) => (pieces ++ more, last)
  | .spaced p q, text =>
    match p.read text with
    | none => none
    | some (pieces, rest) =>
      (afterGap q.read rest).map fun (more, last) => (pieces ++ more, last)
  | .many p, text => some (rounds p.read text text)
  | .spacedMany p, text =>
    match p.read text with
    | none => some ([], text)
    | some (pieces, rest) =>
      let more := rounds (afterGap p.read) rest rest
      some (pieces ++ more.1, more.2)
  | .leaf name p, text =>
    (p.read text).map fun (pieces, rest) => ([.leaf name (Piece.textOf pieces)], rest)
  | .branch name p, text =>
    (p.read text).map fun (pieces, rest) => ([.branch name pieces], rest)

end UnitSystems.Grammar
