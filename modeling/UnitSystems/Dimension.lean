import UnitSystems.Text.Numeral

/-!
# Dimensions

A dimension is one signed 32-bit exponent for every base unit of a system, in the order of the
system. Products add exponents, quotients subtract them, powers multiply them and roots divide
them. Each operation has a result only where the exact integer exponents exist and fit.
-/

namespace UnitSystems

/-- The exponent equal to an integer, if it fits in 32 bits. -/
def exponent? (n : Int) : Option Int32 :=
  if Int32.minValue.toInt ≤ n ∧ n ≤ Int32.maxValue.toInt then some (Int32.ofInt n) else none

/-- An exponent stands for exactly the integer it was made from. -/
theorem exponent?_eq_some_iff {n : Int} {e : Int32} : exponent? n = some e ↔ e.toInt = n := by
  simp only [exponent?, Int32.toInt_minValue, Int32.toInt_maxValue]
  constructor
  · intro h
    split at h
    · obtain rfl := Option.some.inj h
      next fits => exact Int32.toInt_ofInt_of_le fits.1 (by omega)
    · exact nomatch h
  · rintro rfl
    have low := e.le_toInt
    have high := e.toInt_lt
    rw [if_pos ⟨low, by omega⟩, Int32.ofInt_toInt]

/-- No exponent is made exactly when the integer leaves the 32-bit range. -/
theorem exponent?_eq_none_iff {n : Int} :
    exponent? n = none ↔ n < Int32.minValue.toInt ∨ Int32.maxValue.toInt < n := by
  simp only [exponent?, ite_eq_right_iff, reduceCtorEq, imp_false]
  omega

/-- The exponent of each base unit, in declaration order. -/
structure Dimension where
  exponents : List Int32
  deriving DecidableEq, Repr

/-- Reasons why an operation on dimensions has no result. -/
inductive DimensionError
  /-- Two different dimensions where both must be the same. -/
  | incompatible (left right : Dimension)
  /-- Dimensions of systems with different numbers of base units. -/
  | arityMismatch (left right : Nat)
  /-- A root whose degree leaves a remainder at a position. -/
  | notDivisible (dimension : Dimension) (divisor : Int32) (position : Nat)
  /-- A root of degree zero. -/
  | zeroDivisor
  /-- An exponent outside the 32-bit range. -/
  | overflow
  /-- A base unit beyond the last one. -/
  | positionOutOfRange (position arity : Nat)
  deriving DecidableEq, Repr

namespace Dimension

/-- Number of base units of the system that the dimension belongs to. -/
def arity (d : Dimension) : Nat :=
  d.exponents.length

/-- The dimension of a plain number: every exponent is zero. -/
def dimensionless (arity : Nat) : Dimension :=
  ⟨List.replicate arity 0⟩

/-- Whether every exponent is zero. -/
def isDimensionless (d : Dimension) : Bool :=
  d.exponents.all (· == 0)

/-- One whole base unit: the root at its position and zero elsewhere. -/
def unit (arity position : Nat) (root : UInt32) : Except DimensionError Dimension :=
  if arity ≤ position then .error (.positionOutOfRange position arity)
  else
    match exponent? root.toNat with
    | some whole => .ok ⟨(List.replicate arity 0).set position whole⟩
    | none => .error .overflow

/-- Exponents computed position by position, the first that does not fit ending the computation. -/
def combine (op : Int → Int → Int) : List Int32 → List Int32 → Except DimensionError (List Int32)
  | a :: as, b :: bs =>
    match exponent? (op a.toInt b.toInt) with
    | some e => (combine op as bs).map (e :: ·)
    | none => .error .overflow
  | _, _ => .ok []

/-- An operation between corresponding exponents of two dimensions of one arity. -/
def zip (op : Int → Int → Int) (a b : Dimension) : Except DimensionError Dimension :=
  if a.arity = b.arity then (combine op a.exponents b.exponents).map Dimension.mk
  else .error (.arityMismatch a.arity b.arity)

/-- The shared dimension of two summands. -/
def keep (a b : Dimension) : Except DimensionError Dimension :=
  if a.arity = b.arity then
    if a = b then .ok a else .error (.incompatible a b)
  else .error (.arityMismatch a.arity b.arity)

/-- The dimension of a product. -/
def add (a b : Dimension) : Except DimensionError Dimension :=
  zip (· + ·) a b

/-- The dimension of a quotient. -/
def sub (a b : Dimension) : Except DimensionError Dimension :=
  zip (· - ·) a b

/-- Exponents multiplied by one factor. -/
def powers (k : Int32) : List Int32 → Except DimensionError (List Int32)
  | [] => .ok []
  | e :: es =>
    match exponent? (e.toInt * k.toInt) with
    | some power => (powers k es).map (power :: ·)
    | none => .error .overflow

/-- The dimension of an integer power. -/
def power (d : Dimension) (k : Int32) : Except DimensionError Dimension :=
  (powers k d.exponents).map Dimension.mk

/-- Exponents divided by one divisor, from a position on. Division goes toward zero; an exponent
with a remainder is reported with its position in the whole dimension. -/
def roots (whole : Dimension) (k : Int32) : Nat → List Int32 → Except DimensionError (List Int32)
  | _, [] => .ok []
  | position, e :: es =>
    if e.toInt.tmod k.toInt ≠ 0 then .error (.notDivisible whole k position)
    else
      match exponent? (e.toInt.tdiv k.toInt) with
      | some root => (roots whole k (position + 1) es).map (root :: ·)
      | none => .error .overflow

/-- The dimension of an integer root. -/
def root (d : Dimension) (k : Int32) : Except DimensionError Dimension :=
  if k = 0 then .error .zeroDivisor else (roots d k 0 d.exponents).map Dimension.mk

/-- The dimension of the reciprocal. -/
def recip (d : Dimension) : Except DimensionError Dimension :=
  d.power (-1)

/-- The exponents in brackets, with commas between them. -/
def text (d : Dimension) : String :=
  "[" ++ Text.listed (d.exponents.map (·.toInt.repr)) ++ "]"

end Dimension

namespace DimensionError

/-- The sentence that reports a failed operation. -/
def message : DimensionError → String
  | incompatible left right =>
    "incompatible dimensions " ++ left.text ++ " and " ++ right.text ++
      ": both operands must share one dimension"
  | arityMismatch left right =>
    "dimension vectors of arity " ++ left.repr ++ " and " ++ right.repr ++ " cannot be combined"
  | notDivisible dimension divisor position =>
    "exponent " ++ (dimension.exponents.getD position 0).toInt.repr ++ " at position " ++
      position.repr ++ " of " ++ dimension.text ++ " is not divisible by " ++ divisor.toInt.repr
  | zeroDivisor => "root of degree zero"
  | overflow => "exponent overflow"
  | positionOutOfRange position arity =>
    "unit position " ++ position.repr ++ " out of range for a system of " ++ arity.repr ++
      " base units"

end DimensionError

end UnitSystems
