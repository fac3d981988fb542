import UnitSystems.Files.Access
import UnitSystems.Generated.File

/-!
# Writing generated files

The text of a file exists in full before the file system is touched. A definition that is not
valid leaves no trace there.
-/

namespace UnitSystems.Generator

variable {m : Type → Type} [Monad m] [FileAccess m]

/-- The path of the file of a system under a directory. -/
def target (s : Specification) (directory : String) : String :=
  Path.join directory s.outputTarget

/-- Writes the file of a system under a directory and gives its path. -/
def write (g : Generator) (s : Specification) (directory : String) : m (Except Error String) := do
  let path := target s directory
  match ← FileAccess.writeWithParents (m := m) path (Generated.file s g.options) with
  | .ok () => return .ok path
  | .error error => return .error (.io path error.message)

/-- Checks a definition and writes its file under a directory. -/
def generateTo (g : Generator) (d : Definition) (directory : String) :
    m (Except Error String) := do
  match d.validate g.limits with
  | .ok s => g.write s directory
  | .error error => return .error error

end UnitSystems.Generator
