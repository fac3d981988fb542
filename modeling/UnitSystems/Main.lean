import UnitSystems.Command.Session

/-!
# The program

Carries out a command line on the files of the machine. All decisions are made by the session;
this module only passes on what the operating system answers.
-/

namespace UnitSystems.Program

/-- A failure of the operating system as a failure on files. -/
def fileError : IO.Error → FileError
  | .noFileOrDirectory _ _ _ => .notFound
  | .alreadyExists _ _ _ => .alreadyExists
  | .inappropriateType _ code _ => if code = 21 then .isDirectory else .notDirectory
  | .invalidArgument _ code details =>
    if code = 36 then .nameTooLong else .other details
  | error => .other error.toString

/-- The answer of an action, with its failure as a value. -/
def answer {α : Type} (act : IO α) : IO (Except FileError α) := do
  match ← act.toBaseIO with
  | .ok value => return .ok value
  | .error error => return .error (fileError error)

/-- The text of a file, which must be valid Unicode. -/
def readText (path : String) : IO (Except FileError String) := do
  match ← answer (IO.FS.readBinFile path) with
  | .error error => return .error error
  | .ok bytes => return (String.fromUTF8? bytes).elim (.error .notUnicode) .ok

/-- Whether a path leads to a directory. -/
def leadsToDirectory (path : String) : IO Bool := do
  match ← answer (IO.FS.realPath path) with
  | .ok place => place.isDir
  | .error _ => return false

/-- The entries of a directory, their names in ascending order. -/
def entriesIn (path : String) : IO (Except FileError (List IO.FS.DirEntry)) := do
  match ← answer (do (← IO.FS.realPath path).readDir) with
  | .error error => return .error error
  | .ok entries =>
    return .ok (entries.toList.mergeSort fun a b => decide (a.fileName ≤ b.fileName))

/-- What stands in a directory and under it. A link is visited and not followed, whether it leads to
a directory, to a file or nowhere. -/
partial def visitsBelow (path : String) : IO (List Visit) := do
  match ← entriesIn path with
  | .error error => return [.failure path error]
  | .ok entries =>
    let mut visits := []
    for entry in entries do
      let below := Path.join path entry.fileName
      match ← answer entry.path.symlinkMetadata with
      | .error error => visits := visits ++ [.failure below error]
      | .ok metadata =>
        visits := visits ++ [.entry below]
        if metadata.type == .dir then
          visits := visits ++ (← visitsBelow below)
    return visits

/-- Everything at a path and under it. Only the path itself may be a link to a directory. -/
def walkFrom (path : String) : IO (List Visit) := do
  match ← answer (IO.FS.realPath path) with
  | .error error => return [.failure path error]
  | .ok place =>
    if ← place.isDir then return .entry path :: (← visitsBelow path) else return [.entry path]

instance : FileAccess IO where
  makeDirectory path := answer (IO.FS.createDir path)
  isDirectory := leadsToDirectory
  writeFile path text := answer (IO.FS.writeFile path text)
  readFile := readText
  walk := walkFrom

/-- What is said to a command line that cannot be understood. -/
def usage : String :=
  "usage: dimgen [-v] generate FILE [-o DIR] [--runtime PATH] [--docs]\n" ++
    "       dimgen [-v] builtin NAME [-o DIR] [--runtime PATH] [--docs]\n" ++
    "       dimgen [-v] list [DIR]\n" ++
    "       dimgen [-v] show NAME [-d DIR] [--json]\n" ++
    "       dimgen [-v] dim NAME EXPRESSION [-d DIR]\n"

end UnitSystems.Program

open UnitSystems in
/-- Carries out the command line and gives its exit code. -/
def main (arguments : List String) : IO UInt32 := do
  match Command.parse? arguments with
  | none =>
    (← IO.getStderr).putStr Program.usage
    return 2
  | some invocation =>
    let outcome ← invocation.run (m := IO)
    (← IO.getStdout).putStr outcome.output
    (← IO.getStderr).putStr outcome.errors
    return UInt32.ofNat outcome.code
