import UnitSystems.Files.Path

/-!
# File trees

A file tree is the list of its entries, each at the location that the names from the root lead
to. The root is always a directory. Operations take paths: relative ones start in the working
directory, single dots stay where they are, two dots go up, and every component but the last
must lead to a directory that exists.
-/

namespace UnitSystems

/-- Reasons why an operation on files fails. -/
inductive FileError
  | notFound
  | alreadyExists
  | notDirectory
  | isDirectory
  | nameTooLong
  | nameHoldsNul
  | notUnicode
  | other (message : String)
  deriving DecidableEq, Repr

/-- The sentence that reports a failed operation. -/
def FileError.message : FileError → String
  | notFound => "No such file or directory (os error 2)"
  | alreadyExists => "File exists (os error 17)"
  | notDirectory => "Not a directory (os error 20)"
  | isDirectory => "Is a directory (os error 21)"
  | nameTooLong => "File name too long (os error 36)"
  | nameHoldsNul => "file name contained an unexpected NUL byte"
  | notUnicode => "stream did not contain valid UTF-8"
  | other message => message

/-- What a file holds. -/
inductive Content
  | text (text : String)
  /-- Bytes that are no text. -/
  | binary (bytes : List UInt8)
  deriving DecidableEq, Repr

/-- What stands at a location. -/
inductive Entry
  | directory
  | file (content : Content)
  deriving DecidableEq, Repr

/-- What a walk comes to. -/
inductive Visit
  /-- Something that stands at a path. -/
  | entry (path : String)
  /-- A path at which the walk fails. -/
  | failure (path : String) (error : FileError)
  deriving DecidableEq, Repr

/-- The names that lead from the root to a place in the tree. -/
abbrev Location := List String

/-- Whether a location comes at or before another, name by name. -/
def Location.notAfter : Location → Location → Bool
  | [], _ => true
  | _ :: _, [] => false
  | a :: as, b :: bs => if a = b then Location.notAfter as bs else decide (a < b)

/-- A file tree with a working directory. -/
structure Tree where
  entries : List (Location × Entry) := []
  workingDirectory : Location := []
  deriving DecidableEq, Repr

namespace Tree

/-- The entry at a location. -/
def entry? (t : Tree) (location : Location) : Option Entry :=
  if location = [] then some .directory else t.entries.lookup location

/-- The tree with an entry at a location, in place of the one that was there. -/
def put (t : Tree) (location : Location) (entry : Entry) : Tree :=
  { t with entries := (location, entry) :: t.entries.filter (·.1 != location) }

/-- The most bytes that one name may have. -/
def longestName : Nat := 255

/-- The fewest bytes that are too many for a whole path. -/
def pathLimit : Nat := 4096

/-- The names of a path, with its dots but without empty ones. -/
def steps (path : String) : List String :=
  (Text.pieces '/' path).filter (· != "")

/-- Where a path starts. -/
def origin (t : Tree) (path : String) : Location :=
  if Path.isAbsolute path then [] else t.workingDirectory

/-- Whether a path says by a slash at its end that it leads to a directory. -/
def endsInSlash (path : String) : Bool :=
  path.toList.getLast? == some '/'

/-- Refuses paths that cannot be handed to a file system at all. -/
def checkPath (path : String) : Except FileError Unit :=
  if path.toList.contains '\x00' then .error .nameHoldsNul
  else if path = "" then .error .notFound
  else if pathLimit ≤ path.utf8ByteSize then .error .nameTooLong
  else .ok ()

/-- The location that one more name leads to. The place before it must be a directory. -/
def step (t : Tree) (location : Location) (name : String) : Except FileError Location :=
  match t.entry? location with
  | some .directory =>
    if name = "." then .ok location
    else if name = ".." then .ok location.dropLast
    else if longestName < name.utf8ByteSize then .error .nameTooLong
    else .ok (location ++ [name])
  | some (.file _) => .error .notDirectory
  | none => .error .notFound

/-- The location that names lead to. -/
def follow (t : Tree) : Location → List String → Except FileError Location
  | location, [] => .ok location
  | location, name :: rest =>
    match t.step location name with
    | .ok next => t.follow next rest
    | .error error => .error error

/-- The entry that a path leads to. -/
def find (t : Tree) (path : String) : Except FileError (Location × Entry) :=
  match checkPath path with
  | .error error => .error error
  | .ok () =>
    match t.follow (t.origin path) (steps path) with
    | .error error => .error error
    | .ok location =>
      match t.entry? location with
      | none => .error .notFound
      | some .directory => .ok (location, .directory)
      | some (.file content) =>
        if endsInSlash path then .error .notDirectory else .ok (location, .file content)

/-- Whether a path leads to a directory. -/
def isDirectory (t : Tree) (path : String) : Bool :=
  match t.find path with
  | .ok (_, .directory) => true
  | _ => false

/-- The place where the last name of a path would stand, with that name. There is none when the
path ends in dots or is the root. -/
def place (t : Tree) (path : String) : Except FileError (Location × Option String) :=
  match checkPath path with
  | .error error => .error error
  | .ok () =>
    let names := steps path
    match t.follow (t.origin path) names.dropLast with
    | .error error => .error error
    | .ok location =>
      match t.entry? location with
      | none => .error .notFound
      | some (.file _) => .error .notDirectory
      | some .directory =>
        match names.getLast? with
        | none => .ok (location, none)
        | some last => .ok (location, if last = "." ∨ last = ".." then none else some last)

/-- Makes one directory. -/
def makeDirectory (t : Tree) (path : String) : Except FileError Tree :=
  match t.place path with
  | .error error => .error error
  | .ok (_, none) => .error .alreadyExists
  | .ok (location, some name) =>
    if longestName < name.utf8ByteSize then .error .nameTooLong
    else
      match t.entry? (location ++ [name]) with
      | some _ => .error .alreadyExists
      | none => .ok (t.put (location ++ [name]) .directory)

/-- Writes a file, in place of what it held before. -/
def writeFile (t : Tree) (path text : String) : Except FileError Tree :=
  match t.place path with
  | .error error => .error error
  | .ok (_, none) => .error .isDirectory
  | .ok (location, some name) =>
    if endsInSlash path then .error .isDirectory
    else if longestName < name.utf8ByteSize then .error .nameTooLong
    else
      match t.entry? (location ++ [name]) with
      | some .directory => .error .isDirectory
      | _ => .ok (t.put (location ++ [name]) (.file (.text text)))

/-- The text of a file. -/
def readFile (t : Tree) (path : String) : Except FileError String :=
  match t.find path with
  | .error error => .error error
  | .ok (_, .directory) => .error .isDirectory
  | .ok (_, .file (.binary _)) => .error .notUnicode
  | .ok (_, .file (.text text)) => .ok text

/-- The locations under a location, each relative to it, a directory before what it holds and
the names in a directory in ascending order. -/
def below (t : Tree) (location : Location) : List Location :=
  let relative := t.entries.filterMap fun (place, _) =>
    match location.isPrefixOf? place with
    | some (name :: rest) => some (name :: rest)
    | _ => none
  relative.mergeSort Location.notAfter

/-- Everything at a path and under it. Every directory of a tree can be read, so only the start of a
walk can fail. -/
def walk (t : Tree) (path : String) : List Visit :=
  match t.find path with
  | .error error => [.failure path error]
  | .ok (_, .file _) => [.entry path]
  | .ok (location, .directory) =>
    .entry path :: (t.below location).map fun names => .entry (names.foldl Path.join path)

end Tree

end UnitSystems
