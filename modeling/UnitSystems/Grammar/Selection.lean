import UnitSystems.Grammar.Parts
import UnitSystems.Error

/-!
# Finding parts among pieces

Pieces are looked up by the names of their parts. Places are not stored in the pieces: since the
pieces hold the whole text that was read, the place where each one begins follows from the place
where the first one begins.
-/

namespace UnitSystems.Grammar

/-- The text of the first leaf with a name. -/
def leafText? (name : Part) : List (Piece Part) → Option (List Char)
  | [] => none
  | .leaf found text :: rest => if found = name then some text else leafText? name rest
  | _ :: rest => leafText? name rest

/-- The texts of all leaves with a name. -/
def leafTexts (name : Part) : List (Piece Part) → List (List Char)
  | [] => []
  | .leaf found text :: rest =>
    if found = name then text :: leafTexts name rest else leafTexts name rest
  | _ :: rest => leafTexts name rest

/-- The pieces of the first branch with a name. -/
def branch? (name : Part) : List (Piece Part) → Option (List (Piece Part))
  | [] => none
  | .branch found parts :: rest => if found = name then some parts else branch? name rest
  | _ :: rest => branch? name rest

/-- The pieces of all branches with a name. -/
def branches (name : Part) : List (Piece Part) → List (List (Piece Part))
  | [] => []
  | .branch found parts :: rest =>
    if found = name then parts :: branches name rest else branches name rest
  | _ :: rest => branches name rest

/-- Pieces with the places where they begin. -/
def located (start : Place) : List (Piece Part) → List (Place × Piece Part)
  | [] => []
  | piece :: rest => (start, piece) :: located (start.after piece.text) rest

/-- The complaint about a text that cannot be read: it stands at the furthest failure and names
the parts that were tried there. -/
def syntaxComplaint (p : Pattern Part) (text : List Char) (source : String) : Complaint :=
  let tried := p.attempts text
  { message := expectation tried.parts
    span := Span.point (Place.after {} (text.take tried.position))
    source := source }

/-- Reads a whole text as one branch and gives the pieces inside it. -/
def readBranch (p : Pattern Part) (text : List Char) (source : String) :
    Except Complaint (List (Piece Part)) :=
  match p.read text with
  | some (.branch _ parts :: _, _) => .ok parts
  | _ => .error (syntaxComplaint p text source)

section

variable (name : Part) (p : Pattern Part) (text : List Char) (source : String)

/-- A branch is read where its pattern is. -/
theorem readBranch_eq_ok_iff (parts : List (Piece Part)) :
    readBranch (.branch name p) text source = .ok parts ↔
      ∃ rest, p.read text = some (parts, rest) := by
  rw [readBranch, Pattern.read]
  cases p.read text <;> simp [Prod.ext_iff]

/-- The complaint about a branch is that its pattern cannot be read. -/
theorem readBranch_eq_error_iff (complaint : Complaint) :
    readBranch (.branch name p) text source = .error complaint ↔
      p.read text = none ∧ syntaxComplaint (.branch name p) text source = complaint := by
  rw [readBranch, Pattern.read]
  cases p.read text <;> simp

end

end UnitSystems.Grammar
