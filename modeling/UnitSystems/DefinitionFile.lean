import UnitSystems.DefinitionFile.Directive
import UnitSystems.Limits

/-!
# Definition files

A file is read in two steps. The grammar gives a list of systems with their directives, and the
directives of each system are then applied in order. The first fault of the second step is the
one that is reported: a directive that stands twice, or a root that is no 64-bit integer.
-/

namespace UnitSystems

open Grammar (Piece Part)

/-- A system as it stands in a file: its name, its directives and the spans of all of them. -/
structure SystemText where
  name : String
  directives : List (Span × Directive)
  span : Span
  deriving DecidableEq, Repr

namespace SystemText

/-- The directives among pieces, with their spans. -/
def directivesOf (start : Place) (parts : List (Piece Part)) : List (Span × Directive) :=
  (Grammar.located start parts).filterMap fun (place, piece) =>
    (Directive.ofPiece? piece).map fun directive => (Span.covering place piece.text, directive)

/-- The system that the pieces inside its part describe. -/
def ofParts (start : Place) (parts : List (Piece Part)) : SystemText where
  name := Directive.leafString .identifier ((Grammar.branch? .systemName parts).getD [])
  directives := directivesOf start parts
  span := Span.covering start (Piece.textOf parts)

/-- The systems of a file. -/
def ofFile (parts : List (Piece Part)) : List SystemText :=
  (Grammar.located {} parts).filterMap fun (place, piece) =>
    match piece with
    | .branch .system inside => some (ofParts place inside)
    | _ => none

end SystemText

/-- The 64-bit integer that digits denote, if it fits. -/
def root? (digits : String) : Option Int64 :=
  allowedRoot? (Text.integerValue digits.toList)

namespace Definition

/-- A definition with one more directive applied to it. -/
def apply (d : Definition) (source : String) (span : Span) :
    Directive → Except Complaint Definition
  | .output target => .ok { d with output := some target }
  | .scalar type literal =>
    .ok { d with scalarType := type, identityLiteral := literal.getD d.identityLiteral }
  | .unitless name => .ok { d with unitlessConstant := name }
  | .root digits =>
    match root? digits with
    | some value => .ok { d with allowedRoot := value }
    | none =>
      .error
        { message := "root '" ++ digits ++ "' is not a representable integer"
          span := span
          source := source }
  | .units names => .ok { d with units := names }
  | .symbols texts => .ok { d with symbols := texts }
  | .constants names => .ok { d with constants := names }
  | .extra constant => .ok { d with extraConstants := d.extraConstants ++ [constant] }

/-- The complaint about a directive that stands twice. -/
def duplicate (source : String) (span : Span) (directive : Directive) : Complaint :=
  { message := "duplicate '" ++ directive.word ++ "' declaration"
    span := span
    source := source
    suggestion := some "Declare each directive once per system; only 'extra' may repeat" }

/-- A definition with directives applied in order, given the words that stood before them. -/
def applyAll (source : String) (seen : List String) (d : Definition) :
    List (Span × Directive) → Except Complaint Definition
  | [] => .ok d
  | (span, directive) :: rest =>
    if !directive.mayRepeat && seen.contains directive.word then
      .error (duplicate source span directive)
    else
      match d.apply source span directive with
      | .ok next => applyAll source (directive.word :: seen) next rest
      | .error complaint => .error complaint

/-- The definition that a system of a file describes. -/
def ofText (source : String) (system : SystemText) : Except Complaint Definition :=
  (applyAll source [] { name := system.name } system.directives).map fun d =>
    { d with source := some source, span := some system.span }

/-- The definitions of all systems, the first fault ending the work. -/
def ofTexts (source : String) : List SystemText → Except Complaint (List Definition)
  | [] => .ok []
  | system :: rest =>
    match ofText source system with
    | .ok d => (ofTexts source rest).map (d :: ·)
    | .error complaint => .error complaint

end Definition

namespace DefinitionFile

/-- The systems of a text, or the complaint that it cannot be read. -/
def systems (text : List Char) (source : String) : Except Complaint (List SystemText) :=
  (Grammar.readBranch Grammar.Form.unitsFile text source).map SystemText.ofFile

/-- The name of a text that comes from no file. -/
def unnamedSource : String := "<input>"

/-- The error for a text with more bytes than allowed. -/
def tooLarge (limits : Limits) (bytes : Nat) : Error :=
  .limitExceeded "max_definition_bytes" (limits.maxDefinitionBytes.repr ++ " bytes")
    (bytes.repr ++ " bytes") "Split the definitions into several files"

/-- The definitions of a text, in file order. -/
def parse (text : String) (source : Option String) (limits : Limits) :
    Except Error (List Definition) :=
  if limits.maxDefinitionBytes < text.utf8ByteSize then
    .error (tooLarge limits text.utf8ByteSize)
  else
    let name := source.getD unnamedSource
    match systems text.toList name with
    | .error complaint => .error (.parse complaint text)
    | .ok found =>
      match Definition.ofTexts name found with
      | .error complaint => .error (.parse complaint text)
      | .ok definitions => .ok definitions

end DefinitionFile

end UnitSystems
