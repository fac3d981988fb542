import UnitSystems.Report.Table
import UnitSystems.Specification

/-!
# Listings

The texts that the command line prints about systems, files and dimensions.
-/

namespace UnitSystems.Report

/-- One line for each generated file: the system and the path. -/
def generated (written : List (String × String)) : String :=
  String.join (written.map fun (system, path) =>
    "Generated " ++ system ++ " -> " ++ path ++ "\n")

/-- The columns of the table of systems. -/
def systemColumns : List Column :=
  [{ heading := "System" },
    { heading := "Base units", alignment := .right },
    { heading := "Root", alignment := .right },
    { heading := "Output" },
    { heading := "Source" }]

/-- The row of a system. -/
def systemRow (d : Definition) : List String :=
  [d.name, d.units.length.repr, d.allowedRoot.toInt.repr, d.outputTarget, d.source.getD "-"]

/-- The table of systems. -/
def systemTable (systems : List Definition) : String :=
  table systemColumns (systems.map systemRow)

/-- What a workspace holds, followed by the systems that need no file. -/
def summary (files : Nat) (systems builtins : List Definition) : String :=
  "Workspace contains " ++ files.repr ++ " files, " ++ systems.length.repr ++
    " unit systems\n\n" ++
    (if systems.isEmpty then "" else systemTable systems ++ "\n\n") ++
    "Built-in systems:\n" ++ systemTable builtins ++ "\n"

/-- The columns of the table of base units. -/
def unitColumns : List Column :=
  [{ heading := "#" }, { heading := "Unit" }, { heading := "Symbol" }, { heading := "Constant" }]

/-- An entry of a list, marked where it is missing. -/
def entry (list : List String) (index : Nat) : String :=
  list.getD index "?"

/-- The rows of base units, as many as the longest list has entries. -/
def unitRows (d : Definition) : List (List String) :=
  let rows := max (max d.units.length d.symbols.length) d.constants.length
  ["-", unitlessName, "", d.unitlessConstant] ::
    (List.range rows).map fun index =>
      [(index + 1).repr, entry d.units index, entry d.symbols index, entry d.constants index]

/-- The extra constants, if there are any. -/
def extraConstants (d : Definition) : String :=
  if d.extraConstants.isEmpty then ""
  else
    "\nextra constants (" ++ d.extraConstants.length.repr ++ "):\n" ++
      String.join (d.extraConstants.map fun extra =>
        "  - " ++ extra.name ++ " = " ++ extra.expression ++ "\n")

/-- A system with its base units side by side. -/
def system (d : Definition) : String :=
  "System: " ++ d.name ++ "\n" ++
    "Output: " ++ d.outputTarget ++ "\n" ++
    "Scalar: " ++ d.scalarType ++ " = " ++ d.identityLiteral ++ "\n" ++
    "Root: " ++ d.allowedRoot.toInt.repr ++ "\n\n" ++
    table unitColumns (unitRows d) ++ "\n" ++
    extraConstants d

/-- The value of an expression in a system. -/
def dimension (s : Specification) (expression : String) (d : Dimension) (display : String) :
    String :=
  s.name ++ ": " ++ expression ++ "\n" ++
    "  vector:  " ++ d.text ++ "\n" ++
    "  display: " ++ (if d.isDimensionless then "(dimensionless)" else display) ++ "\n"

end UnitSystems.Report
