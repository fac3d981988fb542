import UnitSystems.Generated.Sections
import UnitSystems.Validation

/-!
# Generated files

The text of a generated file depends on the specification and the options alone. A definition
that is not valid has no generated file.
-/

namespace UnitSystems.Generated

/-- All items of the file of a system. -/
def items (s : Specification) (options : Options) : List Item :=
  header s options ++ combinations s CombinationOperator.all ++ scalings s ScalarOperator.all ++
    formatter s ++ aliases s ++ constants s

/-- The text of the file of a system. -/
def file (s : Specification) (options : Options) : String :=
  render (items s options)

end UnitSystems.Generated

namespace UnitSystems

/-- What a generator is set up with. -/
structure Generator where
  options : Generated.Options := {}
  limits : Limits := {}
  deriving DecidableEq, Repr

/-- The text of the file generated from a definition. -/
def Generator.generate (g : Generator) (d : Definition) : Except Error String :=
  (d.validate g.limits).map fun s => Generated.file s g.options

end UnitSystems
