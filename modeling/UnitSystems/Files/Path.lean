import UnitSystems.Text.Split

/-!
# Paths

A path is a text of components between slashes. Repeated slashes, a trailing slash and a single
dot after the first component do not count, while a leading dot and two dots do. Nothing is
resolved here: a path is joined, cut and compared as it is written.
-/

namespace UnitSystems.Path

/-- Whether a path starts at the root of the file tree. -/
def isAbsolute (path : String) : Bool :=
  path.toList.head? == some '/'

/-- Pieces that count as components after the first one. -/
def counts (piece : String) : Bool :=
  piece != "" && piece != "."

/-- The components of a path, the root written as a slash. -/
def components (path : String) : List String :=
  match Text.pieces '/' path with
  | [] => []
  | first :: rest =>
    if first ≠ "" then first :: rest.filter counts
    else if rest.isEmpty then []
    else "/" :: rest.filter counts

/-- A path under another one. An absolute path stands for itself. -/
def join (directory path : String) : String :=
  if isAbsolute path || directory == "" then path
  else if directory.toList.getLast? = some '/' then directory ++ path
  else directory ++ "/" ++ path

/-- Pieces from the last to the first, without those at the end that do not count. -/
def dropUncounted (pieces : List String) : List String :=
  pieces.dropWhile fun piece => !counts piece

/-- The path without its last component, if that is not the root. -/
def parent? (path : String) : Option String :=
  match Text.pieces '/' path with
  | [] => none
  | first :: rest =>
    match dropUncounted rest.reverse with
    | _ :: others =>
      let kept := (dropUncounted others).reverse
      if first = "" ∧ kept.isEmpty then some "/" else some ("/".intercalate (first :: kept))
    | [] => if first = "" then none else some ""

/-- A path and the directories above it, nearest first, up to one that has no name. -/
def ancestors : Nat → String → List String
  | 0, _ => []
  | bound + 1, path =>
    if path = "" then []
    else path :: ((parent? path).map (ancestors bound)).getD []

/-- The name of what a path leads to, if its last component is a name. -/
def fileName? (path : String) : Option String :=
  match (components path).getLast? with
  | none => none
  | some last => if last = "/" ∨ last = "." ∨ last = ".." then none else some last

/-- The part of a file name after its last dot, if that dot is not its first character. -/
def extension? (path : String) : Option String :=
  (fileName? path).bind fun name =>
    let backwards := name.toList.reverse
    let extension := backwards.takeWhile (· != '.')
    match backwards.drop extension.length with
    | _ :: _ :: _ => some (String.ofList extension.reverse)
    | _ => none

end UnitSystems.Path
