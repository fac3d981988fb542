import UnitSystems.Grammar.Selection
import UnitSystems.Specification

/-!
# Dimension expressions

A product and quotient of powers of base units. Its value in a system is the dimension that the
generated types have for the same expression. Each factor contributes the dimension of its base,
multiplied by the numerator and divided by the denominator of its exponent, and the contributions
are added and subtracted from left to right. The first factor that has no value ends the work.
-/

namespace UnitSystems

open Grammar (Piece Part)

/-- What a factor is a power of. -/
inductive Base
  /-- The literal one. -/
  | one
  /-- A base unit, or the dimensionless type, by name. -/
  | unit (name : String)
  deriving DecidableEq, Repr

/-- A power with a fraction as its exponent. -/
structure Factor where
  base : Base
  numerator : Int32
  denominator : Int32
  span : Span
  deriving DecidableEq, Repr

/-- How a factor joins the factors before it. -/
inductive Sign
  | times
  | over
  deriving DecidableEq, Repr

/-- Factors with their signs. The first sign is always `times`. -/
abbrev Expression := List (Sign × Factor)

namespace Expression

/-- The name of a text that is an expression. -/
def sourceName : String := "<expression>"

/-- The 32-bit number that digits at a place denote. -/
def numberAt (start : Place) (digits : List Char) : Except Complaint Int32 :=
  match exponent? (Text.integerValue digits) with
  | some value => .ok value
  | none =>
    .error
      { message := "exponent '" ++ String.ofList digits ++ "' is out of range"
        span := Span.covering start digits
        source := sourceName }

/-- The fraction that the pieces of an exponent denote, starting from a given one. -/
def readRatio (ratio : Int32 × Int32) :
    List (Place × Piece Part) → Except Complaint (Int32 × Int32)
  | [] => .ok ratio
  | (start, .leaf .integer digits) :: rest =>
    match numberAt start digits with
    | .ok numerator => readRatio (numerator, ratio.2) rest
    | .error complaint => .error complaint
  | (start, .leaf .positive digits) :: rest =>
    match numberAt start digits with
    | .ok denominator => readRatio (ratio.1, denominator) rest
    | .error complaint => .error complaint
  | _ :: rest => readRatio ratio rest

/-- The base and the exponent that the pieces of a factor denote, starting from given ones. -/
def readPower (base : Base) (ratio : Int32 × Int32) :
    List (Place × Piece Part) → Except Complaint (Base × Int32 × Int32)
  | [] => .ok (base, ratio)
  | (_, .leaf .identifier name) :: rest => readPower (.unit (String.ofList name)) ratio rest
  | (_, .leaf .one _) :: rest => readPower .one ratio rest
  | (start, .branch .exponent parts) :: rest =>
    match readRatio ratio (Grammar.located start parts) with
    | .ok ratio => readPower base ratio rest
    | .error complaint => .error complaint
  | _ :: rest => readPower base ratio rest

/-- The factor that the pieces of its part denote. -/
def readFactor (start : Place) (parts : List (Piece Part)) : Except Complaint Factor :=
  (readPower .one (1, 1) (Grammar.located start parts)).map fun (base, numerator, denominator) =>
    ⟨base, numerator, denominator, Span.covering start (Piece.textOf parts)⟩

/-- The sign that the pieces of an operator denote. -/
def readSign (parts : List (Piece Part)) : Sign :=
  if Piece.textOf parts = ['/'] then .over else .times

/-- The factors among pieces, each with the sign that stands before it. -/
def readFactors (sign : Sign) : List (Place × Piece Part) → Except Complaint Expression
  | [] => .ok []
  | (_, .branch .operator parts) :: rest => readFactors (readSign parts) rest
  | (start, .branch .factor parts) :: rest =>
    match readFactor start parts with
    | .ok factor => (readFactors sign rest).map ((sign, factor) :: ·)
    | .error complaint => .error complaint
  | _ :: rest => readFactors sign rest

/-- The expression that a text denotes. -/
def parse (text : String) : Except Error Expression :=
  let read := do
    let parts ← Grammar.readBranch Grammar.Form.expression text.toList sourceName
    readFactors .times (Grammar.located {} parts)
  read.mapError (Error.parse · text)

/-- Reasons why an expression has no value in a system. -/
inductive NoValue
  /-- A factor that stands for a unit which the system does not have. -/
  | unknownUnit (name : String) (span : Span)
  /-- An operation on dimensions without a result. -/
  | dimension (cause : DimensionError)
  deriving DecidableEq, Repr

/-- The dimension of the base of a factor. -/
def baseDimension (s : Specification) (factor : Factor) : Except NoValue Dimension :=
  match factor.base with
  | .one => .ok s.dimensionless
  | .unit name =>
    if name = unitlessName then .ok s.dimensionless
    else
      match s.position? name with
      | none => .error (.unknownUnit name factor.span)
      | some position => (s.unitDimension position).mapError .dimension

/-- The dimension that a factor contributes. -/
def contribution (s : Specification) (factor : Factor) : Except NoValue Dimension := do
  let base ← baseDimension s factor
  let raised ← (base.power factor.numerator).mapError .dimension
  (raised.root factor.denominator).mapError .dimension

/-- A dimension with the contribution of one more factor. -/
def join (sign : Sign) (total contribution : Dimension) : Except NoValue Dimension :=
  match sign with
  | .times => (total.add contribution).mapError .dimension
  | .over => (total.sub contribution).mapError .dimension

/-- The value of factors, added to the value of those before them. -/
def evaluateFrom (s : Specification) (total : Dimension) :
    Expression → Except NoValue Dimension
  | [] => .ok total
  | (sign, factor) :: rest => do
    let contribution ← contribution s factor
    let next ← join sign total contribution
    evaluateFrom s next rest

/-- The value of an expression in a system. -/
def evaluate (s : Specification) (expression : Expression) : Except NoValue Dimension :=
  evaluateFrom s s.dimensionless expression

/-- The complaint about a unit that the system does not have. -/
def unknownUnitComplaint (s : Specification) (name : String) (span : Span) : Complaint :=
  { message := "unknown unit '" ++ name ++ "' in system '" ++ s.name ++ "'"
    span := span
    source := sourceName
    suggestion := some ("Known units: " ++ Text.listed s.identifiers) }

/-- The error for an expression without a value, given the text of the expression. -/
def NoValue.toError (s : Specification) (text : String) : NoValue → Error
  | unknownUnit name span => .parse (unknownUnitComplaint s name span) text
  | dimension cause => .dimension cause

end Expression

/-- The dimension that a text denotes in a system. -/
def Specification.evaluate (s : Specification) (text : String) : Except Error Dimension := do
  let expression ← Expression.parse text
  (Expression.evaluate s expression).mapError (Expression.NoValue.toError s text)

end UnitSystems
