import UnitSystems.Files.Tree

/-!
# Access to files

What the program asks of a file system. A file tree answers as a state that the writing
operations change; they change nothing when they fail.
-/

namespace UnitSystems

/-- The operations on files. -/
class FileAccess (m : Type → Type) where
  /-- Makes one directory. -/
  makeDirectory : String → m (Except FileError Unit)
  /-- Whether a path leads to a directory. -/
  isDirectory : String → m Bool
  /-- Writes a file, in place of what it held before. -/
  writeFile : String → String → m (Except FileError Unit)
  /-- The text of a file. -/
  readFile : String → m (Except FileError String)
  /-- Everything at a path and under it, a directory before what it holds and the names in a
  directory in ascending order. A directory that cannot be read is followed by its failure. -/
  walk : String → m (List Visit)

namespace FileAccess

/-- A change of the tree that keeps the old one when it fails. -/
def change (act : Tree → Except FileError Tree) : StateM Tree (Except FileError Unit) :=
  fun t =>
    match act t with
    | .ok changed => (.ok (), changed)
    | .error error => (.error error, t)

/-- A question about the tree. -/
def ask {α : Type} (question : Tree → α) : StateM Tree α :=
  fun t => (question t, t)

instance : FileAccess (StateM Tree) where
  makeDirectory path := change (·.makeDirectory path)
  isDirectory path := ask (·.isDirectory path)
  writeFile path text := change (·.writeFile path text)
  readFile path := ask (·.readFile path)
  walk path := ask (·.walk path)

variable {m : Type → Type} [Monad m] [FileAccess m]

/-- Makes the first of the given directories, after those that are missing above it. A directory
that is already there is no failure. -/
def makeMissing : List String → m (Except FileError Unit)
  | [] => pure (.ok ())
  | path :: above => do
    match ← makeDirectory path with
    | .ok () => return .ok ()
    | .error .notFound =>
      match ← makeMissing above with
      | .error error => return .error error
      | .ok () =>
        match ← makeDirectory path with
        | .ok () => return .ok ()
        | .error error => return if ← isDirectory path then .ok () else .error error
    | .error error => return if ← isDirectory path then .ok () else .error error

/-- Makes a directory and those above it. -/
def makeDirectories (path : String) : m (Except FileError Unit) :=
  makeMissing (Path.ancestors (path.length + 1) path)

/-- Writes a file and makes the directories above it. -/
def writeWithParents (path text : String) : m (Except FileError Unit) := do
  match Path.parent? path with
  | none => writeFile path text
  | some parent =>
    match ← makeDirectories (m := m) parent with
    | .error error => return .error error
    | .ok () => writeFile path text

end FileAccess

end UnitSystems
