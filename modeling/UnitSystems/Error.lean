import UnitSystems.Catalog
import UnitSystems.Dimension

/-!
# Errors

Everything that can go wrong, with its one-line message and its report for a terminal. Several
errors found together form one error. Its single errors, from left to right, are its leaves, and
neither collecting nor reporting loses, repeats or reorders them.
-/

namespace UnitSystems

/-- A fault at a place of a text. -/
structure Complaint where
  message : String
  span : Span
  source : String
  suggestion : Option String := none
  deriving DecidableEq, Repr

/-- Reasons why the program does not do what it was asked. -/
inductive Error
  /-- A fault in the text of a definition file or of an expression, with the whole text. -/
  | parse (complaint : Complaint) (text : String)
  /-- A definition that no file can be generated from. -/
  | specification (message : String)
  /-- An operation on dimensions without a result. -/
  | dimension (cause : DimensionError)
  /-- Input beyond a configured limit. -/
  | limitExceeded (limit bound actual advice : String)
  /-- A file or directory that cannot be read or written. -/
  | io (path message : String)
  /-- A name that no system has. -/
  | unknownSystem (name : String)
  /-- Several errors found together. -/
  | several (errors : List Error)

namespace Error

/-- The error when text cannot be put into a buffer. -/
def buffer : Error :=
  io "<buffer>" "Format error: an error occurred when formatting an argument"

/-- The place and the suggestion follow the message of a fault in a text. -/
def complaintMessage (c : Complaint) : String :=
  "Parse error: " ++ c.message ++
    (match c.suggestion with
      | some suggestion => " (suggestion: " ++ suggestion ++ ")"
      | none => "") ++
    " at " ++ c.source ++ ":" ++ c.span.line.repr ++ ":" ++ c.span.column.repr

mutual

/-- The message of an error. -/
def message : Error → String
  | parse complaint _ => complaintMessage complaint
  | specification message => "Specification error: " ++ message
  | dimension cause => "Dimension error: " ++ cause.message
  | limitExceeded limit bound actual advice =>
    "Resource limit exceeded: " ++ limit ++ " (limit: " ++ bound ++ ", actual: " ++ actual ++
      "). " ++ advice
  | io path message => "I/O error on " ++ path ++ ": " ++ message
  | unknownSystem name => "Unknown unit system: " ++ name
  | several errors => "Multiple errors:\n" ++ "\n".intercalate (numbered 1 errors)

/-- The messages of several errors, each on its line after its number. -/
def numbered : Nat → List Error → List String
  | _, [] => []
  | number, error :: rest =>
    ("  " ++ number.repr ++ ". " ++ error.message) :: numbered (number + 1) rest

end

/-- The lines of words in a report on a text. The first one names the fault and its place. When the
span can be pointed at in the text, a terminal next shows the lines of the text around it, with the
span marked, and then the line with the suggestion. That excerpt says nothing that the source, its
text and the span do not say; it is left out here. -/
def complaintReport (c : Complaint) (text : String) : String :=
  "Error: Parse error: " ++ c.message ++ " (at " ++ c.source ++ ":" ++ c.span.line.repr ++ ":" ++
    c.span.column.repr ++ ")\n" ++
    (match c.suggestion with
      | some suggestion =>
        if c.span.isShownIn text then "Help: " ++ suggestion ++ "\n" else ""
      | none => "")

mutual

/-- The report of an error for a terminal. -/
def report : Error → String
  | parse complaint text => complaintReport complaint text
  | specification message => "Specification error: " ++ message
  | dimension cause => "Dimension error: " ++ cause.message
  | limitExceeded limit bound actual advice =>
    "Resource limit exceeded: " ++ limit ++ "\n  Limit: " ++ bound ++ "\n  Actual: " ++ actual ++
      "\n  " ++ advice
  | io path message => "I/O error on " ++ path ++ ": " ++ message
  | unknownSystem name =>
    "Unknown unit system: " ++ name ++ "\n  Built-in systems: " ++ Text.listed Catalog.names
  | several errors => "Multiple errors occurred:\n\n" ++ reports errors

/-- The reports of several errors, each followed by an empty line. -/
def reports : List Error → String
  | [] => ""
  | error :: rest => error.report ++ "\n\n" ++ reports rest

end

mutual

/-- The single errors of an error, from left to right. -/
def leaves : Error → List Error
  | several errors => leavesOf errors
  | error => [error]

/-- The single errors of several errors. -/
def leavesOf : List Error → List Error
  | [] => []
  | error :: rest => error.leaves ++ leavesOf rest

end

/-- One error for a list of them: one error stays itself, several are grouped. -/
def collect : List Error → Option Error
  | [] => none
  | [error] => some error
  | errors => some (several errors)

end Error

end UnitSystems
