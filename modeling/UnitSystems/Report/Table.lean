import UnitSystems.Text.Columns
import UnitSystems.Text.Split

/-!
# Tables

A table is drawn with box characters: solid lines outside, a double line under the headings and
dashed lines between rows and columns. A cell breaks at line feeds, a row is as high as its
highest cell and a column as wide as its widest line. The drawing has no line feed at its end.
-/

namespace UnitSystems.Report

/-- Where the text of a column stands. -/
inductive Alignment
  | left
  | right
  deriving DecidableEq, Repr

/-- A column: its heading and where its text stands. -/
structure Column where
  heading : String
  alignment : Alignment := .left
  deriving DecidableEq, Repr

/-- The lines of a cell. -/
def linesOf (cell : String) : List String :=
  Text.pieces '\n' cell

/-- The width of a cell. -/
def cellWidth (cell : String) : Nat :=
  ((linesOf cell).map Text.columns).foldl max 0

/-- The widths of the columns of rows with as many cells each. -/
def widths (columns : List Column) (rows : List (List String)) : List Nat :=
  rows.foldl (fun known row => List.zipWith max known (row.map cellWidth))
    (columns.map fun column => cellWidth column.heading)

/-- Copies of a character. -/
def repeated (count : Nat) (c : Char) : String :=
  String.ofList (List.replicate count c)

/-- A horizontal line: its two ends, its crossings and what is between them. -/
def rule (start crossing stop : String) (dash : Char) (widths : List Nat) : String :=
  start ++ crossing.intercalate (widths.map fun width => repeated (width + 2) dash) ++ stop

/-- One line of a cell, with a blank on both sides. -/
def padded (alignment : Alignment) (width : Nat) (line : String) : String :=
  let fill := repeated (width - Text.columns line) ' '
  match alignment with
  | .left => " " ++ line ++ fill ++ " "
  | .right => " " ++ fill ++ line ++ " "

/-- One line of a row, given the lines of each cell. -/
def rowLine (columns : List Column) (widths : List Nat) (cells : List (List String))
    (index : Nat) : String :=
  let parts := List.zipWith
    (fun (column, width) lines => padded column.alignment width (lines.getD index ""))
    (columns.zip widths) cells
  "│" ++ "┆".intercalate parts ++ "│"

/-- The lines of a row. -/
def rowLines (columns : List Column) (widths : List Nat) (row : List String) : List String :=
  let cells := row.map linesOf
  let height := (cells.map List.length).foldl max 0
  (List.range height).map (rowLine columns widths cells)

/-- The lines of a table. -/
def tableLines (columns : List Column) (rows : List (List String)) : List String :=
  let widths := widths columns rows
  let dashed := rule "├" "┼" "┤" '╌' widths
  [rule "┌" "┬" "┐" '─' widths] ++
    rowLines columns widths (columns.map Column.heading) ++
    [rule "╞" "╪" "╡" '═' widths] ++
    [dashed].intercalate (rows.map (rowLines columns widths)) ++
    [rule "└" "┴" "┘" '─' widths]

/-- The drawing of a table. -/
def table (columns : List Column) (rows : List (List String)) : String :=
  "\n".intercalate (tableLines columns rows)

end UnitSystems.Report
