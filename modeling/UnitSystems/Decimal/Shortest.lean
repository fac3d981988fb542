import UnitSystems.Decimal.Binary

/-!
# Shortest decimals

A binary number is written with the fewest decimal digits that still read back as it. The
numbers that round to it form an interval, which includes its ends when the mantissa is even.
Powers of ten are tried from the largest down until a multiple of one lies in the interval, and
of two such multiples the nearer one is taken, the larger one when both are equally near.
The digits are written positionally, never with an exponent.
-/

namespace UnitSystems.Decimal

/-- A power of ten. -/
def tenTo (count : Nat) : Nat :=
  Nat.pow 10 count

/-- The number `digits * 10 ^ exponent`. -/
structure Scaled where
  digits : Nat
  exponent : Int
  deriving DecidableEq, Repr

/-- The interval that rounds to a number: its value and its ends, over one denominator. -/
structure Reach where
  low : Nat
  value : Nat
  high : Nat
  denominator : Nat
  closed : Bool
  deriving DecidableEq, Repr

/-- The interval of a number: half a unit up, and half a unit down or a quarter of one where the
spacing of the numbers below is half as wide. -/
def Binary.reach (b : Binary) : Reach :=
  let below := if b.mantissa = leastMantissa then 1 else 2
  { low := (4 * b.mantissa - below) <<< b.exponent.toNat
    value := (4 * b.mantissa) <<< b.exponent.toNat
    high := (4 * b.mantissa + 2) <<< b.exponent.toNat
    denominator := 4 <<< (-b.exponent).toNat
    closed := b.mantissa % 2 == 0 }

/-- Whether `first` stands before `second`, or at it when the interval is closed. -/
def Reach.reaches (r : Reach) (first second : Nat) : Bool :=
  if r.closed then first ≤ second else first < second

/-- The multiple of `10 ^ exponent` that lies in the interval nearest to the value, if any does. -/
def Reach.multiple (r : Reach) (exponent : Int) : Option Nat :=
  let up := tenTo exponent.toNat
  let down := tenTo (-exponent).toNat
  let step := r.denominator * up
  let floor := r.value * down / step
  let fits := r.reaches (r.low * down) (floor * step)
  let nextFits := r.reaches ((floor + 1) * step) (r.high * down)
  let excess := 2 * (r.value * down - floor * step)
  if fits && nextFits then some (if excess < step then floor else floor + 1)
  else if fits then some floor
  else if nextFits then some (floor + 1)
  else none

/-- The first power of ten, counting down, of which a multiple lies in the interval. -/
def Reach.coarsest (r : Reach) : Nat → Int → Scaled
  | 0, exponent => ⟨0, exponent⟩
  | tries + 1, exponent =>
    match r.multiple exponent with
    | some digits => ⟨digits, exponent⟩
    | none => r.coarsest tries (exponent - 1)

/-- The decimal with the fewest digits that reads back as the number. -/
def Binary.shortest (b : Binary) : Scaled :=
  let reach := b.reach
  let top := (Nat.toDigits 10 (reach.high / reach.denominator)).length
  reach.coarsest (top + b.exponent.natAbs + 1) top

/-- Digits with a point before the last `places` of them, filled with zeros in front. -/
def withPoint (digits places : Nat) : List Char :=
  let fraction := Nat.toDigits 10 (digits % tenTo places)
  Nat.toDigits 10 (digits / tenTo places) ++
    '.' :: (List.replicate (places - fraction.length) '0' ++ fraction)

/-- A decimal written positionally. -/
def Scaled.positional (s : Scaled) : List Char :=
  match s.exponent with
  | .ofNat zeros => Nat.toDigits 10 s.digits ++ List.replicate zeros '0'
  | .negSucc places => withPoint s.digits (places + 1)

/-- A quotient of an integer by a natural, rounded to binary and written with the fewest digits.
Division of a number other than zero by zero gives an infinity. -/
def quotientText (numerator : Int) (denominator : Nat) : String :=
  let sign := if numerator < 0 then ['-'] else []
  let size := numerator.natAbs
  let magnitude :=
    if denominator = 0 then ['i', 'n', 'f']
    else if size = 0 then ['0']
    else (nearest size denominator).shortest.positional
  String.ofList (sign ++ magnitude)

end UnitSystems.Decimal
