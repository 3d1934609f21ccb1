import XmlToJson.Binary64.Basic
import XmlToJson.Numeral.Literal

/-!
# Floating-point numbers as people write them

A decimal number with an optional sign, a point that may stand at either end of the digits, and an
optional exponent; or the name of one of the numbers that are not finite.  One underscore may stand
between two digits.
-/

namespace XmlToJson.Numeral

/-- The number that the digits around a point and an exponent stand for. -/
def ofDigits (negative : Bool) (whole fraction exponent : List Char) : Binary64 :=
  let literal : Literal := ⟨negative, whole, fraction, exponent⟩
  literal.floatValue

/-- A text without its underscores, if each of them stands between two digits.  `afterDigit` says
that the character before was a digit. -/
def withoutUnderscores? (afterDigit : Bool) : List Char → Option (List Char)
  | [] => some []
  | '_' :: c :: rest =>
      if afterDigit && c.isDigit then (withoutUnderscores? true rest).map (c :: ·) else none
  | c :: rest =>
      if c = '_' then none else (withoutUnderscores? c.isDigit rest).map (c :: ·)

/-- The floating-point number that a text stands for. -/
def float? (text : List Char) : Option Binary64 := do
  let body ← withoutUnderscores? false (bodyOf text)
  let (negative, body) := signOf body
  let word := String.ofList (body.map Char.toLower)
  if word = "nan" then some .nan
  else if word = "inf" ∨ word = "infinity" then some (.infinite negative)
  else
    let whole := Literal.digits body
    let behind := body.drop whole.length
    let pointed := behind.head? == some '.'
    let fraction := if pointed then Literal.digits (behind.drop 1) else []
    let last := if pointed then behind.drop (fraction.length + 1) else behind
    let exponent := Literal.readExponent last
    if (whole ++ fraction).isEmpty ∨ exponent.length ≠ last.length then none
    else some (ofDigits negative whole fraction exponent)

end XmlToJson.Numeral
