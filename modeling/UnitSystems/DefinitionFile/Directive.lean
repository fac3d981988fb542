import UnitSystems.Grammar.Selection
import UnitSystems.Text.Blank

/-!
# Directives

A directive sets one field of the system that it stands under. Only the directive for extra
constants may stand more than once. Quoted texts know two escapes by name, for the line feed
and the tab; every other character after a backslash stands for itself.
-/

namespace UnitSystems

open Grammar (Piece Part)

/-- The text between quotes, with its escapes resolved. -/
def resolveEscapes : List Char → List Char
  | [] => []
  | ['\\'] => ['\\']
  | '\\' :: 'n' :: rest => '\n' :: resolveEscapes rest
  | '\\' :: 't' :: rest => '\t' :: resolveEscapes rest
  | '\\' :: c :: rest => c :: resolveEscapes rest
  | c :: rest => c :: resolveEscapes rest

/-- One directive of a system. -/
inductive Directive
  | output (target : String)
  | scalar (type : String) (literal : Option String)
  | unitless (name : String)
  | root (digits : String)
  | units (names : List String)
  | symbols (texts : List String)
  | constants (names : List String)
  | extra (constant : ExtraConstant)
  deriving DecidableEq, Repr

namespace Directive

/-- The word that begins the directive. -/
def word : Directive → String
  | output _ => "output"
  | scalar _ _ => "scalar"
  | unitless _ => "unitless"
  | root _ => "root"
  | units _ => "units"
  | symbols _ => "symbols"
  | constants _ => "constants"
  | extra _ => "extra"

/-- Whether the directive may stand more than once in a system. -/
def mayRepeat : Directive → Bool
  | extra _ => true
  | _ => false

/-- The text inside a quoted text. -/
def quotedText (parts : List (Piece Part)) : String :=
  String.ofList (resolveEscapes ((Grammar.leafText? .stringInner parts).getD []))

/-- A symbol, quoted or bare. -/
def symbolText (parts : List (Piece Part)) : String :=
  match Grammar.branch? .string parts with
  | some inside => quotedText inside
  | none => String.ofList ((Grammar.leafText? .bareSymbol parts).getD [])

/-- The first leaf with a name, as a string that is empty when there is none. -/
def leafString (name : Part) (parts : List (Piece Part)) : String :=
  String.ofList ((Grammar.leafText? name parts).getD [])

/-- The identifiers of a list. -/
def identifiers (parts : List (Piece Part)) : List String :=
  (Grammar.leafTexts .identifier ((Grammar.branch? .identifierList parts).getD [])).map
    String.ofList

/-- The value that runs to the end of the line, without the white space around it. -/
def lineValue? (parts : List (Piece Part)) : Option String :=
  (Grammar.leafText? .restOfLine parts).map fun value => String.ofList (Text.trim value)

/-- The directive that a piece was read as. -/
def ofPiece? : Piece Part → Option Directive
  | .branch .output parts => some (output (quotedText ((Grammar.branch? .string parts).getD [])))
  | .branch .scalar parts => some (scalar (leafString .scalarType parts) (lineValue? parts))
  | .branch .unitless parts => some (unitless (leafString .identifier parts))
  | .branch .root parts => some (root (leafString .integer parts))
  | .branch .units parts => some (units (identifiers parts))
  | .branch .symbols parts =>
    some (symbols ((Grammar.branches .symbol
      ((Grammar.branch? .symbolList parts).getD [])).map symbolText))
  | .branch .constants parts => some (constants (identifiers parts))
  | .branch .extra parts =>
    some (extra ⟨leafString .identifier parts, (lineValue? parts).getD ""⟩)
  | _ => none

end Directive

end UnitSystems
