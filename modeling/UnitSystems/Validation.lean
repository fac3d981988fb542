import UnitSystems.Error
import UnitSystems.Limits
import UnitSystems.Names
import UnitSystems.Specification
import UnitSystems.Text.Blank
import UnitSystems.Text.Quoted

/-!
# Validation

A definition becomes a specification when its lists agree, its sizes stay within the limits and
its names can stand in a generated file. Lists and limits are checked first and report one error
each. Every defect of the names is then reported at once, in the order of the fields.
-/

namespace UnitSystems

/-- What is wrong with a definition. -/
inductive Defect
  | listLengths (system : String) (units symbols constants : Nat)
  | noBaseUnits (system : String)
  | systemNotIdentifier (system : String)
  | systemReserved (system : String)
  | systemIsParameter (system unit : String)
  | rootTooSmall (system : String) (root : Int64)
  | scalarNotPath (system scalarType : String)
  | emptyLiteral (system : String)
  | unitlessNotIdentifier (constant : String)
  | unitNotIdentifier (unit : String)
  | unitReserved (unit : String)
  | unitRepeated (unit system : String)
  | controlInSymbol (symbol system : String)
  | constantNotIdentifier (constant : String)
  | constantRepeated (constant system : String)
  | rootOutOfRange (system : String) (root : Int64)
  deriving DecidableEq, Repr

/-- The sentence that reports a defect. -/
def Defect.message : Defect → String
  | listLengths system units symbols constants =>
    "system '" ++ system ++ "' declares " ++ units.repr ++ " units, " ++ symbols.repr ++
      " symbols and " ++ constants.repr ++ " constants; every base unit needs exactly one of each"
  | noBaseUnits system => "system '" ++ system ++ "' declares no base units"
  | systemNotIdentifier system => "system name '" ++ system ++ "' is not a valid Rust identifier"
  | systemReserved system => "system name '" ++ system ++ "' is reserved by the generated code"
  | systemIsParameter system unit =>
    "system name '" ++ system ++ "' clashes with a type parameter generated for unit '" ++ unit ++
      "'"
  | rootTooSmall system root =>
    "allowed root of system '" ++ system ++ "' must be at least 1, got " ++ root.toInt.repr
  | scalarNotPath system scalarType =>
    "scalar type '" ++ scalarType ++ "' of system '" ++ system ++ "' is not a type path"
  | emptyLiteral system => "system '" ++ system ++ "' has an empty identity literal"
  | unitlessNotIdentifier constant =>
    "unitless constant '" ++ constant ++ "' is not a valid Rust identifier"
  | unitNotIdentifier unit => "unit '" ++ unit ++ "' is not a valid Rust identifier"
  | unitReserved unit => "unit name '" ++ unit ++ "' is reserved by the generated code"
  | unitRepeated unit system =>
    "unit '" ++ unit ++ "' is declared more than once in system '" ++ system ++ "'"
  | controlInSymbol symbol system =>
    "symbol " ++ Text.quoted symbol ++ " of system '" ++ system ++ "' contains a control character"
  | constantNotIdentifier constant =>
    "constant '" ++ constant ++ "' is not a valid Rust identifier"
  | constantRepeated constant system =>
    "constant '" ++ constant ++ "' is declared more than once in system '" ++ system ++ "'"
  | rootOutOfRange system root =>
    "allowed root " ++ root.toInt.repr ++ " of system '" ++ system ++ "' is out of range"

namespace Definition

/-- The defect of lists that do not agree or hold nothing. -/
def listDefect (d : Definition) : Option Defect :=
  let units := d.units.length
  if units ≠ d.symbols.length ∨ units ≠ d.constants.length then
    some (.listLengths d.name units d.symbols.length d.constants.length)
  else if units = 0 then some (.noBaseUnits d.name)
  else none

/-- The error of a definition beyond the limits. -/
def limitError (d : Definition) (limits : Limits) : Option Error :=
  if limits.maxBaseUnits < d.units.length then
    some (.limitExceeded "max_base_units" limits.maxBaseUnits.repr d.units.length.repr
      ("Split system '" ++ d.name ++ "' or raise max_base_units"))
  else if (limits.maxAllowedRoot.toNat : Int) < d.allowedRoot.toInt then
    some (.limitExceeded "max_allowed_root" limits.maxAllowedRoot.toNat.repr
      d.allowedRoot.toInt.repr
      "Deep successor chains exhaust the consumer's recursion limit; use a smaller root")
  else none

/-- The unit of which a type parameter has the name of the system. -/
def clashingUnit? (d : Definition) : Option String :=
  d.units.find? fun unit =>
    d.name == unit ++ Names.leftSuffix || d.name == unit ++ Names.rightSuffix

/-- Defects of the name of the system, at most one. -/
def nameDefects (d : Definition) : List Defect :=
  if !Names.isIdentifier d.name then [.systemNotIdentifier d.name]
  else if Names.isReserved d.name d.scalarType then [.systemReserved d.name]
  else
    match d.clashingUnit? with
    | some unit => [.systemIsParameter d.name unit]
    | none => []

/-- Defects of the single fields of a system. -/
def fieldDefects (d : Definition) : List Defect :=
  d.nameDefects ++
    (if d.allowedRoot.toInt < 1 then [.rootTooSmall d.name d.allowedRoot] else []) ++
    (if Names.isTypePath d.scalarType then [] else [.scalarNotPath d.name d.scalarType]) ++
    (if Text.isAllWhite d.identityLiteral then [.emptyLiteral d.name] else []) ++
    (if Names.isIdentifier d.unitlessConstant then []
      else [.unitlessNotIdentifier d.unitlessConstant])

/-- Whether a unit cannot be declared because the generated file uses its name. -/
def isReservedUnit (d : Definition) (unit : String) : Bool :=
  Names.isReserved unit d.scalarType || unit == d.name

/-- Defects of the name of a unit, at most one. -/
def unitNameDefects (d : Definition) (unit : String) : List Defect :=
  if !Names.isIdentifier unit then [.unitNotIdentifier unit]
  else if d.isReservedUnit unit then [.unitReserved unit]
  else []

/-- Defects of the units, given those that stood before. -/
def unitDefects (d : Definition) (seen : List String) : List String → List Defect
  | [] => []
  | unit :: rest =>
    d.unitNameDefects unit ++
      (if seen.contains unit then [.unitRepeated unit d.name] else []) ++
      d.unitDefects (unit :: seen) rest

/-- Defects of the symbols. -/
def symbolDefects (d : Definition) : List Defect :=
  (d.symbols.filter fun symbol => symbol.toList.any Text.isControl).map
    fun symbol => .controlInSymbol symbol d.name

/-- Defects of the constants, given those that stood before. -/
def constantDefects (d : Definition) (seen : List String) : List String → List Defect
  | [] => []
  | constant :: rest =>
    (if Names.isIdentifier constant then [] else [.constantNotIdentifier constant]) ++
      (if seen.contains constant then [.constantRepeated constant d.name] else []) ++
      d.constantDefects (constant :: seen) rest

/-- All defects of the names, in the order of the fields. -/
def defects (d : Definition) : List Defect :=
  d.fieldDefects ++ d.unitDefects [] d.units ++ d.symbolDefects ++
    d.constantDefects [d.unitlessConstant] d.constants

/-- The 32-bit number equal to the allowed root, if there is one. -/
def root32? (d : Definition) : Option UInt32 :=
  if 0 ≤ d.allowedRoot.toInt ∧ d.allowedRoot.toInt < UInt32.size then
    some (UInt32.ofNat d.allowedRoot.toInt.toNat)
  else none

/-- Base units from three parallel lists. -/
def zipUnits : List String → List String → List String → List BaseUnit
  | unit :: units, symbol :: symbols, constant :: constants =>
    ⟨unit, symbol, constant⟩ :: zipUnits units symbols constants
  | _, _, _ => []

/-- The specification of a definition in which nothing is wrong. -/
def toSpecification (d : Definition) (root : UInt32) : Specification where
  name := d.name
  outputTarget := d.outputTarget
  baseUnits := zipUnits d.units d.symbols d.constants
  scalarType := d.scalarType
  identityLiteral := Text.trimmed d.identityLiteral
  unitlessConstant := d.unitlessConstant
  allowedRoot := root
  extraConstants := d.extraConstants

/-- A defect as an error. -/
def defectError (defect : Defect) : Error :=
  .specification defect.message

/-- The specification of a definition, or everything that is wrong with it. -/
def validate (d : Definition) (limits : Limits) : Except Error Specification :=
  match d.listDefect with
  | some defect => .error (defectError defect)
  | none =>
    match d.limitError limits with
    | some error => .error error
    | none =>
      match Error.collect (d.defects.map defectError) with
      | some error => .error error
      | none =>
        match d.root32? with
        | some root => .ok (d.toSpecification root)
        | none => .error (defectError (.rootOutOfRange d.name d.allowedRoot))

end Definition

end UnitSystems
