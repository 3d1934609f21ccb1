/-!
# Binary64 numbers

The floating-point numbers of 64 bits, as exact values: a finite number is a sign, a mantissa and
an exponent of two.  `ofRatio` rounds a quotient to the nearest number, a tie to the even
mantissa; every other operation is exact or rounds with it.
-/

namespace XmlToJson

/-- A floating-point number. -/
inductive Binary64 where
  | nan
  | infinite (negative : Bool)
  /-- The number `mantissa * 2 ^ exponent`, or its negative.  The mantissa has 53 bits, or fewer
  where the exponent is the least one. -/
  | finite (negative : Bool) (mantissa : Nat) (exponent : Int)
  deriving DecidableEq, Repr

namespace Binary64

/-- The number of bits of a mantissa. -/
def precision : Nat := 53

def minExponent : Int := -1074

def maxExponent : Int := 971

/-- Zero, which has a sign. -/
def zero (negative : Bool) : Binary64 :=
  .finite negative 0 minExponent

/-- The quotient rounded to a whole number, a tie to the even one. -/
def roundDiv (numerator denominator : Nat) : Nat :=
  let quotient := numerator / denominator
  let twice := 2 * (numerator % denominator)
  if denominator < twice ∨ (twice = denominator ∧ quotient % 2 = 1) then quotient + 1 else quotient

/-- A quotient divided by a power of two, as a quotient. -/
def scaleDown (numerator denominator : Nat) (exponent : Int) : Nat × Nat :=
  if 0 ≤ exponent then (numerator, denominator * Nat.pow 2 exponent.toNat)
  else (numerator * Nat.pow 2 (-exponent).toNat, denominator)

/-- The exponent of the number nearest to a positive quotient: the one that leaves 53 bits before
the point, but not less than the least exponent. -/
def exponentOf (numerator denominator : Nat) : Int :=
  let guess : Int := (numerator.log2 : Int) - denominator.log2 - (precision - 1 : Nat)
  let (scaled, divisor) := scaleDown numerator denominator guess
  max minExponent (if scaled < divisor * Nat.pow 2 (precision - 1) then guess - 1 else guess)

/-- The number with the given mantissa and exponent, of which the mantissa may have just grown to
one bit too many and the exponent may be too great. -/
def ofParts (negative : Bool) (mantissa : Nat) (exponent : Int) : Binary64 :=
  let (mantissa, exponent) :=
    if mantissa = Nat.pow 2 precision then (Nat.pow 2 (precision - 1), exponent + 1)
    else (mantissa, exponent)
  if maxExponent < exponent then .infinite negative else .finite negative mantissa exponent

/-- The number nearest to a quotient; `negative` is its sign. -/
def ofRatio (negative : Bool) (numerator denominator : Nat) : Binary64 :=
  if numerator = 0 then zero negative
  else
    let exponent := exponentOf numerator denominator
    let (scaled, divisor) := scaleDown numerator denominator exponent
    ofParts negative (roundDiv scaled divisor) exponent

/-- The number nearest to `digits * 10 ^ scale`.  Beyond the given bounds the result is known
without computing the power. -/
def ofDecimal (negative : Bool) (digits : Nat) (scale : Int) : Binary64 :=
  if digits = 0 then zero negative
  else if 310 < scale then .infinite negative
  else if scale + digits.log2 < -330 then zero negative
  else if 0 ≤ scale then ofRatio negative (digits * Nat.pow 10 scale.toNat) 1
  else ofRatio negative digits (Nat.pow 10 (-scale).toNat)

/-- The number nearest to a whole number. -/
def ofInt (n : Int) : Binary64 :=
  ofRatio (n < 0) n.natAbs 1

/-- Whether the number is neither infinite nor the one that is no number. -/
def isFinite : Binary64 → Bool
  | .finite .. => true
  | _ => false

/-- Whether the sign is a minus; the one that is no number has none. -/
def isNegative : Binary64 → Bool
  | .nan => false
  | .infinite negative => negative
  | .finite negative _ _ => negative

/-- The quotient of two whole numbers that a finite number is. -/
def ratio (mantissa : Nat) (exponent : Int) : Nat × Nat :=
  if 0 ≤ exponent then (mantissa * Nat.pow 2 exponent.toNat, 1)
  else (mantissa, Nat.pow 2 (-exponent).toNat)

/-- How a finite number with the given parts compares with a whole number. -/
def compareFinite (negative : Bool) (mantissa : Nat) (exponent : Int) (n : Int) : Ordering :=
  let (numerator, denominator) := ratio mantissa exponent
  compare (if negative then -(numerator : Int) else numerator) (n * denominator)

/-- How a number compares with a whole number, if it is a number. -/
def compareInt? (x : Binary64) (n : Int) : Option Ordering :=
  match x with
  | .nan => none
  | .infinite negative => some (if negative then .lt else .gt)
  | .finite negative mantissa exponent => some (compareFinite negative mantissa exponent n)

/-- Whether two numbers count as the same: the two zeros do, and the one that is no number is the
same as itself. -/
def same : Binary64 → Binary64 → Bool
  | .finite _ 0 _, .finite _ 0 _ => true
  | x, y => x == y

/-- The product, rounded. -/
def mul (x y : Binary64) : Binary64 :=
  let negative := x.isNegative != y.isNegative
  match x, y with
  | .nan, _ => .nan
  | _, .nan => .nan
  | .infinite _, .finite _ 0 _ => .nan
  | .finite _ 0 _, .infinite _ => .nan
  | .infinite _, _ => .infinite negative
  | _, .infinite _ => .infinite negative
  | .finite _ m e, .finite _ n f =>
      let (numerator, denominator) := ratio m e
      let (numerator', denominator') := ratio n f
      ofRatio negative (numerator * numerator') (denominator * denominator')

/-- The quotient, rounded.  A quotient by zero is infinite, or no number if zero is divided. -/
def div (x y : Binary64) : Binary64 :=
  let negative := x.isNegative != y.isNegative
  match x, y with
  | .nan, _ => .nan
  | _, .nan => .nan
  | .infinite _, .infinite _ => .nan
  | .infinite _, _ => .infinite negative
  | _, .infinite _ => zero negative
  | .finite _ 0 _, .finite _ 0 _ => .nan
  | .finite .., .finite _ 0 _ => .infinite negative
  | .finite _ m e, .finite _ n f =>
      let (numerator, denominator) := ratio m e
      let (numerator', denominator') := ratio n f
      ofRatio negative (numerator * denominator') (denominator * numerator')

end Binary64

end XmlToJson
