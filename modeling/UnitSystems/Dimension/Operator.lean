import UnitSystems.Dimension

/-!
# Operators of the generated algebra

Every operator is a rule on dimensions together with the names of the two traits that its
generated block is about: the one on dimension types and the one on single exponents.
-/

namespace UnitSystems

/-- Operators between two dimensions. -/
inductive CombinationOperator
  /-- Sums and differences of quantities: both sides agree. -/
  | keep
  /-- Products of quantities. -/
  | add
  /-- Quotients of quantities. -/
  | sub
  deriving DecidableEq, Repr

namespace CombinationOperator

/-- All operators, in the order of their blocks. -/
def all : List CombinationOperator := [keep, add, sub]

/-- The short name. -/
def name : CombinationOperator → String
  | keep => "keep"
  | add => "add"
  | sub => "sub"

/-- The operator with a name. -/
def ofName? (name : String) : Option CombinationOperator :=
  all.find? (·.name == name)

/-- The trait on dimension types. -/
def dimensionTrait : CombinationOperator → String
  | keep => "KeepDim"
  | add => "AddDim"
  | sub => "SubDim"

/-- The trait on single exponents. -/
def exponentTrait : CombinationOperator → String
  | keep => "KeepPeano"
  | add => "AddPeano"
  | sub => "SubPeano"

/-- The rule on dimensions. -/
def apply : CombinationOperator → Dimension → Dimension → Except DimensionError Dimension
  | keep => Dimension.keep
  | add => Dimension.add
  | sub => Dimension.sub

end CombinationOperator

/-- Operators that scale a dimension by an integer. -/
inductive ScalarOperator
  /-- Integer powers of quantities. -/
  | mul
  /-- Integer roots of quantities. -/
  | div
  deriving DecidableEq, Repr

namespace ScalarOperator

/-- All operators, in the order of their blocks. -/
def all : List ScalarOperator := [mul, div]

/-- The short name. -/
def name : ScalarOperator → String
  | mul => "mul"
  | div => "div"

/-- The operator with a name. -/
def ofName? (name : String) : Option ScalarOperator :=
  all.find? (·.name == name)

/-- The trait on dimension types. -/
def dimensionTrait : ScalarOperator → String
  | mul => "MulDim"
  | div => "DivDim"

/-- The trait on single exponents. -/
def exponentTrait : ScalarOperator → String
  | mul => "MulPeano"
  | div => "DivPeano"

/-- The rule on dimensions. -/
def apply : ScalarOperator → Dimension → Int32 → Except DimensionError Dimension
  | mul => Dimension.power
  | div => Dimension.root

end ScalarOperator

end UnitSystems
