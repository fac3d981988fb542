/-!
# Places and spans of a text

A place is counted in bytes from the start of the text, and in lines and characters of the line
from one. A line feed ends a line; a carriage return is a character like any other. A span runs
from one place to another and carries the line and the column of its start.
-/

namespace UnitSystems

/-- A place in a text. -/
structure Place where
  offset : Nat := 0
  line : Nat := 1
  column : Nat := 1
  deriving DecidableEq, Repr

namespace Place

/-- The place after one more character. -/
def next (p : Place) (c : Char) : Place :=
  if c = '\n' then ⟨p.offset + c.utf8Size, p.line + 1, 1⟩
  else ⟨p.offset + c.utf8Size, p.line, p.column + 1⟩

/-- The place after more text. -/
def after (p : Place) (text : List Char) : Place :=
  text.foldl next p

@[simp]
theorem after_nil (p : Place) : p.after [] = p := rfl

@[simp]
theorem after_cons (p : Place) (c : Char) (text : List Char) :
    p.after (c :: text) = (p.next c).after text := rfl

/-- Texts are passed one after the other. -/
theorem after_append (p : Place) (first second : List Char) :
    p.after (first ++ second) = (p.after first).after second :=
  List.foldl_append

end Place

/-- A stretch of a text. -/
structure Span where
  start : Nat
  stop : Nat
  line : Nat
  column : Nat
  deriving DecidableEq, Repr

/-- The span of a text that begins at a place. -/
def Span.covering (start : Place) (text : List Char) : Span :=
  ⟨start.offset, (start.after text).offset, start.line, start.column⟩

/-- A report can mark a span in a text that has a line, if the first and the last place of the
span, taken as numbers of characters, are in the text or at its end. -/
def Span.isShownIn (span : Span) (text : String) : Bool :=
  text != "" && max span.start (span.stop - 1) ≤ text.length

/-- The empty span at a place. -/
def Span.point (place : Place) : Span :=
  .covering place []

end UnitSystems
