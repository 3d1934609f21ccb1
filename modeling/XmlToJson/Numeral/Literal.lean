import XmlToJson.Numeral.Integer
import XmlToJson.Binary64.Basic

/-!
# Number literals

A number literal is an optional minus, a whole part without leading zeros, and optionally a
fraction and an exponent, in ASCII digits.  `Literal.read` reads the longest literal that a text
begins with.
-/

namespace XmlToJson.Numeral

/-- The parts of a number literal. -/
structure Literal where
  negative : Bool
  /-- The digits before the point. -/
  whole : List Char
  /-- The digits after the point; there is no point if there are none. -/
  fraction : List Char
  /-- The mark, the sign and the digits of the exponent, or nothing. -/
  exponent : List Char
  deriving DecidableEq, Repr

namespace Literal

/-- The digits that a text begins with. -/
def digits (text : List Char) : List Char :=
  text.takeWhile Char.isDigit

/-- The whole part that a text begins with: a zero, or digits that do not begin with one. -/
def readWhole : List Char → List Char
  | '0' :: _ => ['0']
  | text => digits text

/-- The digits of the fraction that a text begins with. -/
def readFraction : List Char → List Char
  | '.' :: rest => digits rest
  | _ => []

/-- The sign that an exponent begins with. -/
def readSign : List Char → List Char
  | '+' :: _ => ['+']
  | '-' :: _ => ['-']
  | _ => []

/-- The exponent that a text begins with. -/
def readExponent : List Char → List Char
  | mark :: rest =>
      if mark = 'e' ∨ mark = 'E' then
        let sign := readSign rest
        match digits (rest.drop sign.length) with
        | [] => []
        | size => mark :: sign ++ size
      else []
  | [] => []

/-- The number of characters of a literal. -/
def length (literal : Literal) : Nat :=
  (if literal.negative then 1 else 0) + literal.whole.length +
    (if literal.fraction.isEmpty then 0 else literal.fraction.length + 1) + literal.exponent.length

/-- The parts of the literal that `body` begins with, behind its sign. -/
def ofBody (negative : Bool) (body : List Char) : Literal :=
  let whole := readWhole body
  let fraction := readFraction (body.drop whole.length)
  let pointed := if fraction.isEmpty then 0 else fraction.length + 1
  ⟨negative, whole, fraction, readExponent (body.drop (whole.length + pointed))⟩

/-- The parts of the literal that a text begins with; without digits its whole part is empty. -/
def front : List Char → Literal
  | '-' :: body => ofBody true body
  | body => ofBody false body

/-- The longest literal that a text begins with, and what follows it. -/
def read (text : List Char) : Option (Literal × List Char) :=
  let literal := front text
  if literal.whole.isEmpty then none else some (literal, text.drop literal.length)

/-- Whether the literal has neither a fraction nor an exponent. -/
def isInteger (literal : Literal) : Bool :=
  literal.fraction.isEmpty && literal.exponent.isEmpty

/-- What a run of decimal digits stands for. -/
def natOfDigits (digits : List Char) : Nat :=
  digits.foldl (fun value c => value * 10 + (c.toNat - 48)) 0

/-- The whole number that the whole part stands for. -/
def intValue (literal : Literal) : Int :=
  if literal.negative then -(natOfDigits literal.whole : Int) else natOfDigits literal.whole

/-- The number that the exponent stands for. -/
def exponentValue (literal : Literal) : Int :=
  match literal.exponent.drop 1 with
  | '-' :: size => -(natOfDigits size : Int)
  | '+' :: size => natOfDigits size
  | size => natOfDigits size

/-- The floating-point number nearest to the literal. -/
def floatValue (literal : Literal) : Binary64 :=
  Binary64.ofDecimal literal.negative (natOfDigits (literal.whole ++ literal.fraction))
    (literal.exponentValue - literal.fraction.length)

/-- A literal has at least one character. -/
theorem length_lt_of_read {text following : List Char} {literal : Literal}
    (h : read text = some (literal, following)) : following.length < text.length := by
  rcases text with - | ⟨c, rest⟩
  · simp [read, front, ofBody, readWhole, digits] at h
  · simp only [read] at h
    split at h
    · simp at h
    · next hwhole =>
        obtain ⟨rfl, rfl⟩ := by simpa using h
        rw [List.isEmpty_iff, ← List.length_eq_zero_iff] at hwhole
        simp only [List.length_drop, length, List.length_cons]
        omega

end Literal

end XmlToJson.Numeral
