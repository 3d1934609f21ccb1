import XmlToJson.Binary64.Basic

/-!
# The fewest digits that read back

Every decimal number that lies closer to a floating-point number than to its neighbours reads back
as it.  `shortest` finds the one with the fewest digits among them; of several it takes the
nearest, and of two equally near ones the one with the even last digit.

A floating-point number has two neighbours on each grid of decimal numbers with a given number of
digits.  The grids are tried from the coarsest to the finest: the first that has a neighbour which
reads back gives the answer, and seventeen digits are always enough.
-/

namespace XmlToJson.Binary64

/-- A decimal number: `digits * 10 ^ scale`. -/
structure Decimal where
  digits : Nat
  scale : Int
  deriving DecidableEq, Repr

/-- Whether `numerator / denominator` is at least `10 ^ power`. -/
def reachesPower (numerator denominator : Nat) (power : Int) : Bool :=
  if 0 ≤ power then denominator * Nat.pow 10 power.toNat ≤ numerator
  else denominator ≤ numerator * Nat.pow 10 (-power).toNat

/-- The greatest power of ten that a positive quotient reaches.  The logarithm to base two gives it
up to a few steps. -/
def decimalExponent (numerator denominator : Nat) : Int :=
  let log : Int := (numerator.log2 : Int) - denominator.log2 - 1
  let least := log * 30103 / 100000 - 1
  (([3, 2, 1, 0].find? fun step : Int =>
    reachesPower numerator denominator (least + step)).getD 0) + least

/-- The reals that round to a finite number, as numerators over a common denominator: the lower
end, the number itself and the upper end, four times as fine as the mantissa.  Below a power of two
the lower neighbour is only half as far away. -/
def interval (mantissa : Nat) (exponent : Int) : Nat × Nat × Nat × Nat :=
  let low :=
    if mantissa = Nat.pow 2 (precision - 1) ∧ minExponent < exponent then 4 * mantissa - 1
    else 4 * mantissa - 2
  let (unit, denominator) := ratio 1 exponent
  (low * unit, 4 * mantissa * unit, (4 * mantissa + 2) * unit, 4 * denominator)

/-- The numerator of `digits * 10 ^ scale` over `denominator * gridFactor scale`. -/
def onGrid (digits : Nat) (scale : Int) (denominator : Nat) : Nat :=
  if 0 ≤ scale then digits * Nat.pow 10 scale.toNat * denominator else digits * denominator

/-- What a numerator over `denominator` has to be multiplied by to be compared with `onGrid`. -/
def gridFactor (scale : Int) : Nat :=
  if 0 ≤ scale then 1 else Nat.pow 10 (-scale).toNat

/-- The neighbour on the grid of multiples of `10 ^ scale` that reads back, if there is one. -/
def onGrid? (mantissa : Nat) (exponent scale : Int) : Option Decimal :=
  let (low, value, high, denominator) := interval mantissa exponent
  let factor := gridFactor scale
  let readsBack := fun digits : Nat =>
    let place := onGrid digits scale denominator
    if mantissa % 2 = 0 then low * factor ≤ place && place ≤ high * factor
    else low * factor < place && place < high * factor
  let below := value * factor / onGrid 1 scale denominator
  let above := below + 1
  let distanceBelow := value * factor - onGrid below scale denominator
  let distanceAbove := onGrid above scale denominator - value * factor
  let nearer :=
    if distanceBelow < distanceAbove ∨ (distanceBelow = distanceAbove ∧ below % 2 = 0) then below
    else above
  if readsBack below && readsBack above then some ⟨nearer, scale⟩
  else if readsBack below then some ⟨below, scale⟩
  else if readsBack above then some ⟨above, scale⟩
  else none

/-- The decimal number without the zeros at its end; at most `count` of them are taken off. -/
def stripZeros : Nat → Decimal → Decimal
  | 0, decimal => decimal
  | count + 1, decimal =>
      if decimal.digits % 10 = 0 ∧ decimal.digits ≠ 0 then
        stripZeros count ⟨decimal.digits / 10, decimal.scale + 1⟩
      else decimal

/-- The shortest decimal number that reads back as the finite number with the given parts. -/
def shortest (mantissa : Nat) (exponent : Int) : Decimal :=
  if mantissa = 0 then ⟨0, 0⟩
  else
    let (numerator, denominator) := ratio mantissa exponent
    let top := decimalExponent numerator denominator
    match (List.range 17).findSome? fun step : Nat => onGrid? mantissa exponent (top - step) with
    | some decimal => stripZeros 17 decimal
    | none => ⟨0, 0⟩

end XmlToJson.Binary64
