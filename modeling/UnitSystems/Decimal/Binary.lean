/-!
# Quotients in binary

A positive quotient of naturals is rounded to 53 significant bits, a half to the even neighbour.
The exponent is not bounded: a quotient of a 32-bit numerator and a 32-bit denominator stays
inside the range of every format with that precision.
-/

namespace UnitSystems.Decimal

/-- The positive number `mantissa * 2 ^ exponent`. -/
structure Binary where
  mantissa : Nat
  exponent : Int
  deriving DecidableEq, Repr

/-- Number of significant bits. -/
def precision : Nat := 53

/-- The least number with as many bits as the precision asks. -/
def leastMantissa : Nat := 1 <<< (precision - 1)

/-- The quotient rounded to a natural, a half to the even neighbour. -/
def roundHalfEven (numerator denominator : Nat) : Nat :=
  let floor := numerator / denominator
  let excess := 2 * (numerator % denominator)
  if excess < denominator then floor
  else if denominator < excess then floor + 1
  else if floor % 2 = 0 then floor else floor + 1

/-- `numerator / denominator` in units of `2 ^ exponent`, again as a fraction. -/
def inUnits (numerator denominator : Nat) (exponent : Int) : Nat × Nat :=
  (numerator <<< (-exponent).toNat, denominator <<< exponent.toNat)

/-- The exponent at which the quotient has as many bits before the point as the precision asks. -/
def leadingExponent (numerator denominator : Nat) : Int :=
  let guess : Int := (numerator.log2 : Int) - denominator.log2 - (precision - 1 : Nat)
  let scaled := inUnits numerator denominator guess
  if scaled.1 < leastMantissa * scaled.2 then guess - 1 else guess

/-- A quotient in lowest terms, rounded to the precision. -/
def nearestOfCoprime (numerator denominator : Nat) : Binary :=
  let exponent := leadingExponent numerator denominator
  let scaled := inUnits numerator denominator exponent
  let mantissa := roundHalfEven scaled.1 scaled.2
  if mantissa = 2 * leastMantissa then ⟨leastMantissa, exponent + 1⟩ else ⟨mantissa, exponent⟩

/-- The number of 53 significant bits nearest to `numerator / denominator`, both positive. -/
def nearest (numerator denominator : Nat) : Binary :=
  let common := numerator.gcd denominator
  nearestOfCoprime (numerator / common) (denominator / common)

end UnitSystems.Decimal
