/-!
# Command line arguments

A command line is one of five commands with its options and operands. Options stand anywhere
after the command; a value stands in the next argument, after an equals sign, or directly after
the letter of a short option. Letters of options without a value may share one dash. Nothing
after a double dash is an option. Paths are never empty and nothing may be given twice.
-/

namespace UnitSystems.Command

/-- What the program is asked to do. -/
inductive Task
  | generate (file : String) (out runtime : Option String) (docs : Bool)
  | builtin (name out : String) (runtime : Option String) (docs : Bool)
  | list (root : String)
  | showSystem (name directory : String) (json : Bool)
  | dim (name expression directory : String)
  deriving DecidableEq, Repr

/-- A task, and whether the program logs what it does. -/
structure Invocation where
  verbose : Bool
  task : Task
  deriving DecidableEq, Repr

/-- An option of a command. -/
structure Flag where
  long : String
  short : Option Char := none
  takesValue : Bool := false
  deriving DecidableEq, Repr

/-- Options and operands as they were given. -/
structure Given where
  flags : List String := []
  values : List (String × String) := []
  operands : List String := []
  deriving DecidableEq, Repr

namespace Given

/-- Whether an option was given. -/
def has (g : Given) (long : String) : Bool :=
  g.flags.contains long

/-- The value of an option. -/
def value? (g : Given) (long : String) : Option String :=
  g.values.lookup long

/-- One more option without a value, refused when it was given before. -/
def addFlag (g : Given) (long : String) : Option Given :=
  if g.has long then none else some { g with flags := g.flags ++ [long] }

/-- One more option with a value, refused when it was given before. -/
def addValue (g : Given) (long value : String) : Option Given :=
  if (g.value? long).isSome then none else some { g with values := g.values ++ [(long, value)] }

/-- One more operand. -/
def addOperand (g : Given) (operand : String) : Given :=
  { g with operands := g.operands ++ [operand] }

end Given

/-- A text before and after its first equals sign. -/
def splitEquals (text : List Char) : List Char × Option (List Char) :=
  match text.dropWhile (· != '=') with
  | _ :: value => (text.takeWhile (· != '='), some value)
  | [] => (text, none)

/-- Whether an argument can be the value of the option before it. -/
def isValue (argument : String) : Bool :=
  match argument.toList with
  | '-' :: _ :: _ => false
  | _ => true

/-- What an argument with letters after one dash asks for: options without a value, and perhaps
an option that takes a value, with the value if it stands in the same argument. -/
def readLetters (flags : List Flag) (g : Given) : List Char → Option (Given × Option String)
  | [] => some (g, none)
  | letter :: rest =>
    match flags.find? (·.short == some letter) with
    | none => none
    | some flag =>
      if flag.takesValue then
        match rest with
        | [] => some (g, some flag.long)
        | '=' :: value => (g.addValue flag.long (String.ofList value)).map (·, none)
        | value => (g.addValue flag.long (String.ofList value)).map (·, none)
      else
        match g.addFlag flag.long with
        | none => none
        | some more => readLetters flags more rest

/-- What an argument with a word after two dashes asks for. -/
def readLong (flags : List Flag) (g : Given) (text : List Char) :
    Option (Given × Option String) :=
  let (word, value) := splitEquals text
  match flags.find? (·.long.toList == word) with
  | none => none
  | some flag =>
    match flag.takesValue, value with
    | true, some value => (g.addValue flag.long (String.ofList value)).map (·, none)
    | true, none => some (g, some flag.long)
    | false, none => (g.addFlag flag.long).map (·, none)
    | false, some _ => none

/-- What one argument asks for, and the option whose value must come next. -/
def readOne (flags : List Flag) (g : Given) (argument : String) :
    Option (Given × Option String) :=
  match argument.toList with
  | '-' :: '-' :: word => readLong flags g word
  | '-' :: letter :: rest => readLetters flags g (letter :: rest)
  | _ => some (g.addOperand argument, none)

/-- Options and operands of a command, after those already read. -/
def readAll (flags : List Flag) (g : Given) : List String → Option Given
  | [] => some g
  | argument :: rest =>
    if argument = "--" then some (rest.foldl Given.addOperand g)
    else
      match readOne flags g argument with
      | none => none
      | some (more, none) => readAll flags more rest
      | some (more, some long) =>
        match rest with
        | [] => none
        | value :: others =>
          if isValue value then
            match more.addValue long value with
            | none => none
            | some complete => readAll flags complete others
          else none

/-- The option that makes the program log what it does. -/
def verboseFlag : Flag := { long := "verbose", short := some 'v' }

/-- The option for the directory of generated files. -/
def outFlag : Flag := { long := "out", short := some 'o', takesValue := true }

/-- The option for the path that traits are imported from. -/
def runtimeFlag : Flag := { long := "runtime", takesValue := true }

/-- The option for the table of base units. -/
def docsFlag : Flag := { long := "docs" }

/-- The option for the workspace. -/
def directoryFlag : Flag := { long := "dir", short := some 'd', takesValue := true }

/-- The option for output as JSON. -/
def jsonFlag : Flag := { long := "json" }

/-- The options of a command, if there is such a command. -/
def flagsOf? (command : String) : Option (List Flag) :=
  if command = "generate" ∨ command = "builtin" then
    some [verboseFlag, outFlag, runtimeFlag, docsFlag]
  else if command = "list" then some [verboseFlag]
  else if command = "show" then some [verboseFlag, directoryFlag, jsonFlag]
  else if command = "dim" then some [verboseFlag, directoryFlag]
  else none

/-- A path as the value of an option or an operand. -/
def path? (text : String) : Option String :=
  if text = "" then none else some text

/-- The value of an option for a path, if it was given. -/
def pathOption? (g : Given) (long : String) : Option (Option String) :=
  match g.value? long with
  | none => some none
  | some text => (path? text).map some

/-- The directory that is meant when none is given. -/
def here : String := "."

/-- The task that a command is given with its options and operands. -/
def task? (command : String) (g : Given) : Option Task :=
  if command = "generate" then do
    let out ← pathOption? g "out"
    match g.operands with
    | [file] => (path? file).map fun file => .generate file out (g.value? "runtime") (g.has "docs")
    | _ => none
  else if command = "builtin" then do
    let out ← pathOption? g "out"
    match g.operands with
    | [name] => some (.builtin name (out.getD here) (g.value? "runtime") (g.has "docs"))
    | _ => none
  else if command = "list" then
    match g.operands with
    | [] => some (.list here)
    | [root] => (path? root).map .list
    | _ => none
  else if command = "show" then do
    let directory ← pathOption? g "dir"
    match g.operands with
    | [name] => some (.showSystem name (directory.getD here) (g.has "json"))
    | _ => none
  else if command = "dim" then do
    let directory ← pathOption? g "dir"
    match g.operands with
    | [name, expression] => some (.dim name expression (directory.getD here))
    | _ => none
  else none

/-- The arguments from the command on, which options of the whole program may precede. -/
def commandLine? (verbose : Given) : List String → Option (Given × String × List String)
  | [] => none
  | argument :: rest =>
    if (flagsOf? argument).isSome then some (verbose, argument, rest)
    else
      match argument.toList with
      | '-' :: _ =>
        match readOne [verboseFlag] verbose argument with
        | some (more, none) => if more.operands.isEmpty then commandLine? more rest else none
        | _ => none
      | _ => none

/-- What the arguments ask for, if they can be understood. -/
def parse? (arguments : List String) : Option Invocation := do
  let (before, command, rest) ← commandLine? {} arguments
  let flags ← flagsOf? command
  let given ← readAll flags {} rest
  let task ← task? command given
  return ⟨before.has "verbose" || given.has "verbose", task⟩

end UnitSystems.Command
