import UnitSystems.Dimension.Operator
import UnitSystems.Generated.Item
import UnitSystems.Names
import UnitSystems.Specification

/-!
# Sections of a generated file

The sections stand in a fixed order: the header with the dimension type, the operators between
two dimensions, the operators that scale one, the display, the aliases and the constants. An
operator is an implementation for all exponents at once: which pairings of exponents exist is
left to the traits on single exponents, so an impossible pairing simply has no implementation.
-/

namespace UnitSystems.Generated

/-- Options that change the text of a generated file without changing its algebra. -/
structure Options where
  /-- The path that the traits are imported from. -/
  runtime : String := "dimensioned"
  /-- Whether the base units are listed in a table at the top. -/
  unitTable : Bool := false
  deriving DecidableEq, Repr

/-- Names imported from the runtime. -/
def runtimeNames : List String :=
  ["AddDim", "AddPeano", "Dim", "DimToString", "Dimension", "Dimensionless", "DivDim", "DivPeano",
    "KeepDim", "KeepPeano", "MulDim", "MulPeano", "Peano", "Pred", "SubDim", "SubPeano", "Succ",
    "ToInt", "Zero"]

/-- Lints that are switched off. -/
def allowedLints : List String :=
  ["non_snake_case", "non_upper_case_globals", "dead_code", "unused_imports"]

/-- The type of a system applied to arguments. -/
def typeOf (s : Specification) (arguments : List Argument) : DimensionType :=
  ⟨s.name, arguments⟩

/-- The type of a system applied to type parameters. -/
def typeOfParameters (s : Specification) (parameters : List String) : DimensionType :=
  typeOf s (parameters.map Argument.parameter)

/-- The base units with a suffix, as parameters for one operand of a combination. -/
def suffixed (s : Specification) (suffix : String) : List String :=
  s.identifiers.map (· ++ suffix)

/-- The table of the base units. -/
def unitTable (s : Specification) : List Item :=
  [.comment "//! " ("Base units of the " ++ s.name ++ " unit system."),
    .comment "//!" "",
    .comment "//! " "Constant | Unit | Print Token",
    .comment "//! " "---|---|---",
    .comment "//! " (s.unitlessConstant ++ " | " ++ unitlessName ++ " | -")] ++
  s.baseUnits.map (fun unit =>
    .comment "//! " (unit.constant ++ " | " ++ unit.identifier ++ " | " ++ unit.symbol)) ++
  [.blank]

/-- The header: provenance, lints, imports and the dimension type. -/
def header (s : Specification) (options : Options) : List Item :=
  [.comment "// "
    ("This file was generated by dimgen from the `" ++ s.name ++ "` unit system. Do not edit.")] ++
  (if options.unitTable then unitTable s else []) ++
  allowedLints.map Item.allow ++
  [.blank,
    .imports options.runtime runtimeNames,
    .importOne "std::marker::PhantomData",
    .blank,
    .comment "/// "
      ("Dimension in the " ++ s.name ++
        " unit system: one type-level exponent per base unit."),
    .record s.name s.identifiers (s.baseUnits.map fun unit => (unit.constant, unit.identifier)),
    .blank,
    .dimension s.identifiers (typeOfParameters s s.identifiers),
    .blank]

/-- The block of an operator between two dimensions. -/
def combination (s : Specification) (op : CombinationOperator) : Operation :=
  let left := suffixed s Names.leftSuffix
  let right := suffixed s Names.rightSuffix
  let outputs := List.zipWith (fun l r => Argument.projection l op.exponentTrait r) left right
  { parameters := left ++ right
    dimensionTrait := op.dimensionTrait
    operand := .dimension (typeOfParameters s right)
    target := typeOfParameters s left
    bounds :=
      List.zipWith (fun l r =>
          ⟨.parameter l, [⟨exponentBound, none⟩, ⟨op.exponentTrait, some r⟩]⟩) left right ++
        right.map (fun r => ⟨.parameter r, [⟨exponentBound, none⟩]⟩) ++
        outputs.map (fun output => ⟨output, [⟨exponentBound, none⟩]⟩)
    output := typeOf s outputs }

/-- The type parameter that stands for the integer of a scaling. -/
def scalarParameter : String := "RHS"

/-- The block of an operator that scales a dimension. -/
def scaling (s : Specification) (op : ScalarOperator) : Operation :=
  let parameters := s.identifiers
  let outputs := parameters.map fun parameter =>
    Argument.projection parameter op.exponentTrait scalarParameter
  { parameters := parameters ++ [scalarParameter]
    dimensionTrait := op.dimensionTrait
    operand := .parameter scalarParameter
    target := typeOfParameters s parameters
    bounds :=
      parameters.map (fun parameter =>
          ⟨.parameter parameter,
            [⟨exponentBound, none⟩, ⟨op.exponentTrait, some scalarParameter⟩]⟩) ++
        [⟨.parameter scalarParameter, [⟨exponentBound, none⟩]⟩] ++
        outputs.map (fun output => ⟨output, [⟨exponentBound, none⟩]⟩)
    output := typeOf s outputs }

/-- The blocks of operators between two dimensions. -/
def combinations (s : Specification) (ops : List CombinationOperator) : List Item :=
  ops.flatMap fun op => [.operation (combination s op), .blank]

/-- The blocks of operators that scale a dimension. -/
def scalings (s : Specification) (ops : List ScalarOperator) : List Item :=
  ops.flatMap fun op => [.operation (scaling s op), .blank]

/-- The display of dimensions. -/
def display (s : Specification) : Formatter where
  parameters := s.identifiers
  target := typeOfParameters s s.identifiers
  bounds := s.identifiers.map fun parameter =>
    ⟨.parameter parameter, [⟨exponentBound, none⟩, ⟨"ToInt", none⟩]⟩
  arms := s.baseUnits.map fun unit => ⟨unit.identifier, unit.symbol, s.allowedRoot.toNat⟩

/-- The section with the display. -/
def formatter (s : Specification) : List Item :=
  [.formatter (display s), .blank]

/-- The type of the dimensionless numbers. -/
def unitlessType (s : Specification) : DimensionType :=
  typeOf s (List.replicate s.arity (.exponent 0))

/-- The type of the base unit at a position: the root there and zero elsewhere. -/
def unitType (s : Specification) (position : Nat) : DimensionType :=
  typeOf s ((List.replicate s.arity (.exponent 0)).set position (.exponent s.allowedRoot.toNat))

/-- The names of the dimensionless type and of the types of the base units. -/
def aliases (s : Specification) : List Item :=
  [.typeAlias unitlessName (unitlessType s), .dimensionless unitlessName, .blank] ++
  s.identifiers.mapIdx (fun position name => .typeAlias name (unitType s position)) ++
  [.blank]

/-- A constant whose value is the literal one. -/
def constant (s : Specification) (name type : String) : Item :=
  .constant name type s.scalarType s.identityLiteral

/-- The constants, one for every alias. -/
def constants (s : Specification) : List Item :=
  constant s s.unitlessConstant unitlessName ::
    s.baseUnits.map fun unit => constant s unit.constant unit.identifier

end UnitSystems.Generated
