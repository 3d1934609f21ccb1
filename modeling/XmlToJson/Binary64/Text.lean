import XmlToJson.Binary64.Shortest

/-!
# Writing floating-point numbers

A number is written with the fewest digits that read back: positionally while its decimal exponent
is from -4 to 15, with a point and a zero after it if it is whole, and with an exponent otherwise.
An exponent has a sign and at least two digits.
-/

namespace XmlToJson.Binary64

/-- When a number is written positionally, and how its exponent is written otherwise. -/
structure DecimalLayout where
  /-- The least decimal exponent that is written positionally. -/
  leastPositional : Int
  /-- The least decimal exponent above it that is not. -/
  firstExponential : Int
  /-- The least number of digits of an exponent. -/
  exponentDigits : Nat

/-- Numbers from `0.0001` to below `1e+16` are positional, and exponents have two digits. -/
def layout : DecimalLayout := ⟨-4, 16, 2⟩

/-- Digits with the point after the first `whole` of them. -/
def positional (digits : List Char) (whole : Int) : List Char :=
  if whole ≤ 0 then '0' :: '.' :: List.replicate (-whole).toNat '0' ++ digits
  else if digits.length ≤ whole.toNat then
    digits ++ List.replicate (whole.toNat - digits.length) '0' ++ ['.', '0']
  else digits.take whole.toNat ++ '.' :: digits.drop whole.toNat

/-- Digits with the point after the first of them, and the exponent. -/
def exponential (layout : DecimalLayout) (digits : List Char) (exponent : Int) : List Char :=
  let fraction := if digits.length ≤ 1 then [] else '.' :: digits.drop 1
  let size := Nat.toDigits 10 exponent.natAbs
  digits.take 1 ++ fraction ++ 'e' :: (if exponent < 0 then '-' else '+') ::
    List.replicate (layout.exponentDigits - size.length) '0' ++ size

/-- The text of a decimal number. -/
def Decimal.text (decimal : Decimal) : List Char :=
  let digits := Nat.toDigits 10 decimal.digits
  let exponent := decimal.scale + digits.length - 1
  if layout.leastPositional ≤ exponent ∧ exponent < layout.firstExponential then
    positional digits (exponent + 1)
  else exponential layout digits exponent

/-- The text of a number; the three that are not finite have the names that are given. -/
def text (infinity notANumber : String) : Binary64 → List Char
  | .nan => notANumber.toList
  | .infinite negative => (if negative then ['-'] else []) ++ infinity.toList
  | .finite negative mantissa exponent =>
      (if negative then ['-'] else []) ++ (shortest mantissa exponent).text

/-- The text of a number by itself. -/
def toText (x : Binary64) : String :=
  String.ofList (x.text "inf" "nan")

end XmlToJson.Binary64
