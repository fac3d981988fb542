import UnitSystems.Text.Numeral
import UnitSystems.Text.Quoted

/-!
# Items of a generated file

A generated file is a list of items, and an item is a list of lines. The items say what the file
declares, which parameters an implementation binds and what it refers to; the lines are only
their spelling. An integer exponent is a type: so many successors or predecessors of zero. It is
spelled into a buffer that is reserved beforehand, and so only where a buffer can be that long.
-/

namespace UnitSystems.Generated

/-- The wrapper that spells the sign of an integer. -/
def wrapperOf (value : Int) : String :=
  if value < 0 then "Pred" else "Succ"

/-- The type that spells an integer: `Zero`, `Succ<Succ<Zero>>`, `Pred<Zero>`. -/
def peano (value : Int) : String :=
  String.join (List.replicate value.natAbs (wrapperOf value ++ "<")) ++ "Zero" ++
    String.join (List.replicate value.natAbs ">")

/-- The most bytes that a buffer can have: the largest signed 64-bit integer. -/
def longestBuffer : Nat := 9223372036854775807

/-- The bytes that are reserved for the spelling of an integer: its wrappers, each with two
brackets, and the zero inside them. -/
def reservedBytes (value : Int64) : Nat :=
  value.toInt.natAbs * ((wrapperOf value.toInt).utf8ByteSize + 2) + 4

/-- The spelling of a 64-bit integer. Where no buffer is long enough there is none: the reservation
fails, and so would every text that grows beyond the longest buffer. -/
def peano? (value : Int64) : Option String :=
  if reservedBytes value ≤ longestBuffer then some (peano value.toInt) else none

/-- Arguments of a dimension type. -/
inductive Argument
  /-- A type parameter. -/
  | parameter (name : String)
  /-- The result of a trait between two type parameters. -/
  | projection (left exponentTrait right : String)
  /-- A fixed exponent. -/
  | exponent (value : Int)
  deriving DecidableEq, Repr

/-- How an argument is spelled. -/
def Argument.text : Argument → String
  | parameter name => name
  | projection left exponentTrait right =>
    "<" ++ left ++ " as " ++ exponentTrait ++ "<" ++ right ++ ">>::Output"
  | exponent value => peano value

/-- The type of a system applied to one argument for each base unit. -/
structure DimensionType where
  system : String
  arguments : List Argument
  deriving DecidableEq, Repr

/-- How a dimension type is spelled. -/
def DimensionType.text (t : DimensionType) : String :=
  t.system ++ "<" ++ Text.listed (t.arguments.map Argument.text) ++ ">"

/-- What an operation takes on its right: a dimension type or a type parameter. -/
inductive Operand
  | dimension (type : DimensionType)
  | parameter (name : String)
  deriving DecidableEq, Repr

/-- How an operand is spelled. -/
def Operand.text : Operand → String
  | dimension type => type.text
  | parameter name => name

/-- A trait, perhaps with a type parameter as its argument. -/
structure Trait where
  name : String
  argument : Option String := none
  deriving DecidableEq, Repr

/-- How a trait is spelled. -/
def Trait.text (t : Trait) : String :=
  match t.argument with
  | some argument => t.name ++ "<" ++ argument ++ ">"
  | none => t.name

/-- A condition of an implementation: the subject has all the traits. -/
structure Bound where
  subject : Argument
  traits : List Trait
  deriving DecidableEq, Repr

/-- How a condition is spelled. -/
def Bound.text (b : Bound) : String :=
  b.subject.text ++ ": " ++ " + ".intercalate (b.traits.map Trait.text)

/-- The implementation of an operator on dimension types. -/
structure Operation where
  parameters : List String
  dimensionTrait : String
  operand : Operand
  target : DimensionType
  bounds : List Bound
  output : DimensionType
  deriving DecidableEq, Repr

/-- What the display of a dimension does with one base unit. -/
structure Arm where
  parameter : String
  symbol : String
  root : Nat
  deriving DecidableEq, Repr

/-- The implementation of the display of dimension types. -/
structure Formatter where
  parameters : List String
  target : DimensionType
  bounds : List Bound
  arms : List Arm
  deriving DecidableEq, Repr

/-- Items of a generated file. -/
inductive Item
  /-- A comment line. -/
  | comment (marker text : String)
  /-- A lint that is switched off for the whole file. -/
  | allow (lint : String)
  /-- An import of several names from one path. -/
  | imports (path : String) (names : List String)
  /-- An import of one name. -/
  | importOne (path : String)
  /-- The dimension type, with a field of no size for each base unit. -/
  | record (name : String) (parameters : List String) (fields : List (String × String))
  /-- The dimension type is a dimension. -/
  | dimension (parameters : List String) (target : DimensionType)
  /-- An operator on dimension types. -/
  | operation (operation : Operation)
  /-- The display of dimension types. -/
  | formatter (formatter : Formatter)
  /-- A name for a dimension type. -/
  | typeAlias (name : String) (type : DimensionType)
  /-- The dimensionless type is dimensionless. -/
  | dimensionless (name : String)
  /-- A constant of a named dimension type. -/
  | constant (name type scalar literal : String)
  /-- An empty line. -/
  | blank
  deriving DecidableEq, Repr

/-- The bound of every exponent parameter. -/
def exponentBound : String := "Peano"

/-- A text between braces. -/
def braced (text : String) : String :=
  "\x7b" ++ text ++ "\x7d"

/-- Type parameters, each with the bound of exponents. -/
def bounded (parameters : List String) : List String :=
  parameters.map fun parameter => parameter ++ ": " ++ exponentBound

/-- A condition on a line of its own. -/
def Bound.line (b : Bound) : String :=
  "    " ++ b.text ++ ","

/-- The lines of an operator. -/
def Operation.lines (o : Operation) : List String :=
  ["impl<" ++ Text.listed o.parameters ++ "> " ++ o.dimensionTrait ++ "<" ++ o.operand.text ++
      "> for " ++ o.target.text,
    "where"] ++
  o.bounds.map Bound.line ++
  ["\x7b", "    type Output = " ++ o.output.text ++ ";", "\x7d"]

/-- The lines for one base unit: nothing for zero, the symbol for one whole unit, and otherwise
the symbol with the quotient of the exponent by the root. -/
def Arm.lines (a : Arm) : List String :=
  ["        match <" ++ a.parameter ++ " as ToInt>::to_int() \x7b",
    "            0 => \x7b\x7d",
    "            " ++ a.root.repr ++ " => text.push_str(" ++ Text.quoted a.symbol ++ "),",
    "            n => text.push_str(&format!(\"\x7b\x7d^\x7b\x7d\", " ++ Text.quoted a.symbol ++
      ", n as f64 / " ++ a.root.repr ++ ".0)),",
    "        \x7d"]

/-- The lines of the display. -/
def Formatter.lines (f : Formatter) : List String :=
  ["impl<" ++ Text.listed f.parameters ++ "> DimToString for " ++ f.target.text, "where"] ++
  f.bounds.map Bound.line ++
  ["\x7b", "    fn to_string() -> String \x7b", "        let mut text = String::new();"] ++
  f.arms.flatMap Arm.lines ++
  ["        text", "    \x7d", "\x7d"]

/-- The lines of an item. -/
def Item.lines : Item → List String
  | comment marker text => [marker ++ text]
  | allow lint => ["#![allow(" ++ lint ++ ")]"]
  | imports path names => ["use " ++ path ++ "::" ++ braced (Text.listed names) ++ ";"]
  | importOne path => ["use " ++ path ++ ";"]
  | record name parameters fields =>
    ["#[derive(Copy, Clone)]",
      "pub struct " ++ name ++ "<" ++ Text.listed (bounded parameters) ++ "> \x7b"] ++
    fields.map (fun (field, parameter) =>
      "    " ++ field ++ ": PhantomData<" ++ parameter ++ ">,") ++
    ["\x7d"]
  | dimension parameters target =>
    ["impl<" ++ Text.listed (bounded parameters) ++ "> Dimension for " ++ target.text ++ " " ++
      braced ""]
  | operation o => o.lines
  | formatter f => f.lines
  | typeAlias name type => ["pub type " ++ name ++ " = " ++ type.text ++ ";"]
  | dimensionless name => ["impl Dimensionless for " ++ name ++ " " ++ braced ""]
  | constant name type scalar literal =>
    ["pub const " ++ name ++ ": Dim<" ++ type ++ ", " ++ scalar ++ "> = Dim(" ++ literal ++
      ", PhantomData);"]
  | blank => [""]

/-- Lines, each ended by a line feed. -/
def unlines (lines : List String) : String :=
  String.join (lines.map (· ++ "\n"))

/-- The text of items, one after the other. -/
def render (items : List Item) : String :=
  unlines (items.flatMap Item.lines)

end UnitSystems.Generated
