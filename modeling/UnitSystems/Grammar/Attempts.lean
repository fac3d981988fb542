import UnitSystems.Grammar.Pattern

/-!
# Where reading failed

The message for a text that cannot be read names the parts that were tried at the furthest place
that was reached. While a pattern is explored, every named part that fails adds its name to the
names noted at that place. A part under which exactly one name was noted keeps that name, which
says more than its own; a part under which several were noted stands for all of them. Nothing
is noted inside a leaf, and a place once left behind is forgotten.
-/

namespace UnitSystems.Grammar

variable {ν : Type}

/-- The furthest place of a failure, in characters from the start, and the parts tried there. -/
structure Attempts (ν : Type) where
  position : Nat := 0
  parts : List ν := []

namespace Attempts

/-- How many parts are noted at a position. -/
def countAt (a : Attempts ν) (position : Nat) : Nat :=
  if position = a.position then a.parts.length else 0

/-- Notes a part that failed at a position, where `before` parts had been noted when it began. -/
def note (a : Attempts ν) (name : ν) (position before : Nat) : Attempts ν :=
  if a.countAt position = before + 1 then a
  else if position = a.position then ⟨position, a.parts.take before ++ [name]⟩
  else if a.position < position then ⟨position, [name]⟩
  else a

end Attempts

/-- Exploration of a repetition: each round is explored, the one that fails included. -/
def exploreRounds (read : List Char → Option (Reading ν))
    (explore : Nat → List Char → Attempts ν → Attempts ν) :
    List Char → Nat → List Char → Attempts ν → Attempts ν
  | [], position, text, a => explore position text a
  | _ :: bound, position, text, a =>
    let noted := explore position text a
    match read text with
    | none => noted
    | some (pieces, rest) =>
      exploreRounds read explore bound (position + (Piece.textOf pieces).length) rest noted

/-- Exploration after blanks and a comment. -/
def exploreAfterGap (explore : Nat → List Char → Attempts ν → Attempts ν) (position : Nat)
    (text : List Char) (a : Attempts ν) : Attempts ν :=
  let space := gap text
  explore (position + space.1.length) space.2 a

/-- Exploration of a named part, given what exploring its inside notes. -/
def exploreNamed (name : ν) (p : Pattern ν) (inside : Attempts ν → Attempts ν) (position : Nat)
    (text : List Char) (a : Attempts ν) : Attempts ν :=
  let noted := inside a
  if (p.read text).isSome then noted else noted.note name position (a.countAt position)

/-- The attempts made while a pattern is read from a position of a text. -/
def Pattern.explore : Pattern ν → Nat → List Char → Attempts ν → Attempts ν
  | .either p q, position, text, a =>
    let noted := p.explore position text a
    if (p.read text).isSome then noted else q.explore position text noted
  | .optional p, position, text, a => p.explore position text a
  | .joined p q, position, text, a =>
    let noted := p.explore position text a
    match p.read text with
    | none => noted
    | some (pieces, rest) => q.explore (position + (Piece.textOf pieces).length) rest noted
  | .spaced p q, position, text, a =>
    let noted := p.explore position text a
    match p.read text with
    | none => noted
    | some (pieces, rest) =>
      exploreAfterGap q.explore (position + (Piece.textOf pieces).length) rest noted
  | .many p, position, text, a => exploreRounds p.read p.explore text position text a
  | .spacedMany p, position, text, a =>
    let noted := p.explore position text a
    match p.read text with
    | none => noted
    | some (pieces, rest) =>
      exploreRounds (afterGap p.read) (exploreAfterGap p.explore) rest
        (position + (Piece.textOf pieces).length) rest noted
  | .leaf name p, position, text, a => exploreNamed name p id position text a
  | .branch name p, position, text, a =>
    exploreNamed name p (p.explore position text) position text a
  | .one _, _, _, a => a
  | .run _, _, _, a => a
  | .word _, _, _, a => a
  | .finish, _, _, a => a
  | .notAhead _, _, _, a => a

/-- The attempts made while a whole text is read. -/
def Pattern.attempts (p : Pattern ν) (text : List Char) : Attempts ν :=
  p.explore 0 text {}

end UnitSystems.Grammar
