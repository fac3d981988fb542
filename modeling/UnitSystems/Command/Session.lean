import UnitSystems.Command.Arguments
import UnitSystems.Definition.Json
import UnitSystems.DefinitionFile
import UnitSystems.Display
import UnitSystems.Expression
import UnitSystems.Generation
import UnitSystems.Json.Printer
import UnitSystems.Report.Listing

/-!
# Sessions

A session carries out one task. It prints, logs and either ends or fails. Whether anything is
logged does not change what is done. All systems of a file are checked before the first file is
written, and everything that is wrong with them is reported at once.
-/

namespace UnitSystems.Command

/-- Why a session fails. -/
inductive Failure
  | error (cause : Error)
  /-- A failure that has a text but no error of its own. -/
  | other (text : String)

/-- The line that reports a failure. -/
def Failure.text : Failure → String
  | error cause => cause.report ++ "\n"
  | other text => "Error: " ++ text ++ "\n"

/-- What has been printed and logged. -/
structure Console where
  printed : String := ""
  logged : String := ""
  deriving DecidableEq, Repr

/-- Work that prints, logs and may fail. What was printed and logged survives a failure. -/
abbrev Session (m : Type → Type) := ExceptT Failure (StateT Console m)

namespace Session

variable {m : Type → Type} [Monad m]

/-- Prints a text. -/
def print (text : String) : Session m Unit :=
  modify fun console => { console with printed := console.printed ++ text }

/-- Logs a line. -/
def log (line : String) : Session m Unit :=
  modify fun console => { console with logged := console.logged ++ line ++ "\n" }

/-- Fails with an error. -/
def fail {α : Type} (error : Error) : Session m α :=
  throw (.error error)

/-- Goes on with a result or fails with its error. -/
def get {α : Type} (result : Except Error α) : Session m α :=
  match result with
  | .ok value => pure value
  | .error error => fail error

/-- An operation on files. -/
def access {α : Type} (act : m α) : Session m α :=
  ExceptT.lift (StateT.lift act)

end Session

open Session

variable {m : Type → Type} [Monad m] [FileAccess m]

/-- The systems of a definition file. -/
def loadFile (path : String) : Session m (List Definition) := do
  match ← access (FileAccess.readFile (m := m) path) with
  | .error error => fail (.io path error.message)
  | .ok text =>
    let definitions ← get (DefinitionFile.parse text (some path) {})
    log ("DEBUG dimgen: parsed definitions file=" ++ path ++ " systems=" ++
      definitions.length.repr)
    return definitions

/-- Whether a path names a definition file. -/
def isDefinitionFile (path : String) : Bool :=
  Path.extension? path == some "units"

/-- The number of definition files that a walk comes to and the systems in them, in order. Each file
is loaded before the next visit is looked at, so the first failure is reported, whether it is one of
the walk or of a file. -/
def loadVisits : List Visit → Session m (Nat × List Definition)
  | [] => return (0, [])
  | .failure path error :: _ =>
    throw (.other ("IO error for operation on " ++ path ++ ": " ++ error.message))
  | .entry path :: rest => do
    if isDefinitionFile path then
      let first ← loadFile path
      let (files, others) ← loadVisits rest
      return (files + 1, first ++ others)
    else loadVisits rest

/-- The number of definition files of a workspace and the systems in them. -/
def loadWorkspace (directory : String) : Session m (Nat × List Definition) := do
  let visits ← access (FileAccess.walk (m := m) directory)
  let (files, systems) ← loadVisits visits
  log ("INFO dimgen: loaded workspace files=" ++ files.repr ++ " systems=" ++
    systems.length.repr)
  return (files, systems)

/-- The first system of a workspace with a name, else the one of the catalog. -/
def findSystem (directory name : String) : Session m Definition := do
  let (_, systems) ← loadWorkspace directory
  match systems.find? (·.name == name) with
  | some definition => return definition
  | none =>
    match Catalog.find? name with
    | some definition => return definition
    | none => fail (.unknownSystem name)

/-- A generator with the options of the command line. -/
def generatorFor (runtime : Option String) (docs : Bool) : Generator :=
  let unset : Generated.Options := {}
  { options := { runtime := runtime.getD unset.runtime, unitTable := docs } }

/-- The log lines about the sections of a file. -/
def sectionLines (s : Specification) : List String :=
  let line (name : String) : String :=
    "DEBUG dimgen::generator: emitted section system=" ++ Text.quoted s.name ++ " section=\"" ++
      name ++ "\""
  let names (items : List String) : String :=
    " operators=[" ++ Text.listed (items.map Text.quoted) ++ "]"
  [line "header" ++ " arity=" ++ s.arity.repr,
    line "combination" ++ names (CombinationOperator.all.map (·.name)),
    line "scalar" ++ names (ScalarOperator.all.map (·.name)),
    line "formatter",
    line "aliases",
    line "constants" ++ " skipped_extra=" ++ s.extraConstants.length.repr]

/-- The log line about a file that was written. -/
def writtenLine (g : Generator) (s : Specification) (path : String) : String :=
  "INFO dimgen::generator: wrote unit system system=" ++ Text.quoted s.name ++ " path=" ++ path ++
    " bytes=" ++ (Generated.file s g.options).utf8ByteSize.repr

/-- Writes the file of a system and gives its path. -/
def writeSystem (g : Generator) (directory : String) (s : Specification) : Session m String := do
  for line in sectionLines s do
    log line
  let path ← get (← access (g.write (m := m) s directory))
  log (writtenLine g s path)
  return path

/-- Writes the files of several systems and gives the name and the path of each. -/
def writeSystems (g : Generator) (directory : String) :
    List Specification → Session m (List (String × String))
  | [] => return []
  | s :: rest => do
    let path ← writeSystem g directory s
    let others ← writeSystems g directory rest
    return (s.name, path) :: others

/-- What is known about the systems of a file while they are checked: their names, the last
system for each target, the valid ones and the errors, both in file order. -/
structure Survey where
  names : List String := []
  targets : List (List String × String) := []
  specifications : List Specification := []
  errors : List Error := []

namespace Survey

/-- The error for a name that an earlier system has. -/
def repeatedName (file : String) (d : Definition) : Error :=
  .specification ("system '" ++ d.name ++ "' is declared more than once in " ++ file)

/-- The error for a target that an earlier system has. -/
def sharedTarget (previous : String) (d : Definition) (path : String) : Error :=
  .specification ("systems '" ++ previous ++ "' and '" ++ d.name ++ "' both write " ++ path)

/-- Errors about the name of one more system. -/
def nameErrors (survey : Survey) (file : String) (d : Definition) : List Error :=
  if survey.names.contains d.name then [repeatedName file d] else []

/-- Errors about the target of one more valid system. -/
def targetErrors (survey : Survey) (directory : String) (d : Definition) (s : Specification) :
    List Error :=
  let path := Generator.target s directory
  match survey.targets.lookup (Path.components path) with
  | some previous => [sharedTarget previous d path]
  | none => []

/-- The survey with one more system. -/
def add (g : Generator) (file directory : String) (survey : Survey) (d : Definition) : Survey :=
  let errors := survey.errors ++ survey.nameErrors file d
  let names := d.name :: survey.names
  match d.validate g.limits with
  | .error error => { survey with names, errors := errors ++ [error] }
  | .ok s =>
    { names
      targets := (Path.components (Generator.target s directory), d.name) :: survey.targets
      specifications := survey.specifications ++ [s]
      errors := errors ++ survey.targetErrors directory d s }

end Survey

/-- The specifications of the systems of a file, or everything that is wrong with them. -/
def checkSystems (g : Generator) (file directory : String) (definitions : List Definition) :
    Except Error (List Specification) :=
  let survey := definitions.foldl (Survey.add g file directory) {}
  match Error.collect survey.errors with
  | some error => .error error
  | none => .ok survey.specifications

/-- Generates the files of all systems of a definition file. -/
def generate (file : String) (out runtime : Option String) (docs : Bool) : Session m Unit := do
  let definitions ← loadFile file
  if definitions.isEmpty then
    throw (.other ("no unit systems found in " ++ file))
  let directory := out.getD ((Path.parent? file).getD "")
  let g := generatorFor runtime docs
  let specifications ← get (checkSystems g file directory definitions)
  let written ← writeSystems g directory specifications
  print (Report.generated written)

/-- Generates the file of a system of the catalog. -/
def builtin (name out : String) (runtime : Option String) (docs : Bool) : Session m Unit := do
  match Catalog.find? name with
  | none => fail (.unknownSystem name)
  | some definition =>
    let g := generatorFor runtime docs
    let s ← get (definition.validate g.limits)
    let path ← writeSystem g out s
    print (Report.generated [(definition.name, path)])

/-- Lists the systems of a workspace and of the catalog. -/
def list (root : String) : Session m Unit := do
  print ("Loading workspace from " ++ root ++ "...\n")
  let (files, systems) ← loadWorkspace root
  print ("\n" ++ Report.summary files systems Catalog.systems)

/-- Shows a system, as a table or as JSON. -/
def showSystem (name directory : String) (json : Bool) : Session m Unit := do
  let definition ← findSystem directory name
  print (if json then definition.toJson.pretty ++ "\n" else Report.system definition)

/-- Shows the value of an expression in a system. -/
def dim (name expression directory : String) : Session m Unit := do
  let definition ← findSystem directory name
  let s ← get (definition.validate {})
  let d ← get (s.evaluate expression)
  let display ← get ((s.format d).mapError Error.dimension)
  print (Report.dimension s expression d display)

/-- Carries out a task. -/
def Task.run : Task → Session m Unit
  | .generate file out runtime docs => Command.generate file out runtime docs
  | .builtin name out runtime docs => Command.builtin name out runtime docs
  | .list root => Command.list root
  | .showSystem name directory json => Command.showSystem name directory json
  | .dim name expression directory => Command.dim name expression directory

/-- What a run of the program leaves behind: its exit code and the texts of its two outputs. -/
structure Outcome where
  code : Nat
  output : String
  errors : String
  deriving DecidableEq, Repr

/-- Carries out an invocation. -/
def Invocation.run (invocation : Invocation) : m Outcome := do
  let (result, console) ← (invocation.task.run (m := m)).run.run {}
  let log := if invocation.verbose then console.logged else ""
  match result with
  | .ok () => return ⟨0, console.printed, log⟩
  | .error failure => return ⟨1, console.printed, log ++ failure.text⟩

end UnitSystems.Command
