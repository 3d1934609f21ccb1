import XmlToJson.Text.Classes

/-!
# Whole numbers as people write them

The reading of a whole number that numeric references and command-line values use.  Blanks around
the number do not count, a sign may stand before it, one underscore may stand between two digits,
and the digits of every decimal script are accepted.  In base sixteen the number may begin with
`0x` or `0X`, which one underscore may follow.
-/

namespace XmlToJson.Numeral

/-- The most decimal digits that a number may have to be read. -/
def maxDigits : Nat := 4300

/-- Blanks beyond ASCII count as a space and the digits of every script as the ASCII ones.  Other
characters beyond ASCII stay, and so do the information separators, which are no part of a
number. -/
def simplify (c : Char) : Char :=
  if c.toNat < 128 then c
  else if Text.isBlank c then ' '
  else match Text.decimalDigit? c with
    | some digit => Nat.digitChar digit
    | none => c

/-- A space, or one of the five ASCII controls that move the writing position. -/
def isSpace (c : Char) : Bool :=
  c == ' ' || (9 ≤ c.toNat && c.toNat ≤ 13)

/-- The value of an ASCII digit or letter as a digit of a base up to sixteen. -/
def digit? (base : Nat) (c : Char) : Option Nat :=
  let value :=
    if c.isDigit then c.toNat - 48
    else if 'a' ≤ c ∧ c ≤ 'f' then c.toNat - 87
    else if 'A' ≤ c ∧ c ≤ 'F' then c.toNat - 55
    else base
  if value < base then some value else none

/-- The value of a run of digits in which underscores stand only between two digits.
`value` is what the digits read so far stand for, and `afterDigit` says that the character before
was a digit. -/
def ofDigits? (base value : Nat) (afterDigit : Bool) : List Char → Option Nat
  | [] => if afterDigit then some value else none
  | c :: rest =>
      if c = '_' then
        if afterDigit then ofDigits? base value false rest else none
      else
        match digit? base c with
        | some digit => ofDigits? base (value * base + digit) true rest
        | none => none

/-- The number without the mark of its base: `0x` or `0X`, and an underscore after it. -/
def withoutMark : List Char → List Char
  | '0' :: x :: rest =>
      if x = 'x' ∨ x = 'X' then
        match rest with
        | '_' :: after => after
        | _ => rest
      else '0' :: x :: rest
  | text => text

/-- The sign of a number, true for a minus, and what follows it. -/
def signOf : List Char → Bool × List Char
  | '-' :: rest => (true, rest)
  | '+' :: rest => (false, rest)
  | text => (false, text)

/-- The characters of a number between the spaces around it. -/
def bodyOf (text : List Char) : List Char :=
  (((text.map simplify).dropWhile isSpace).reverse.dropWhile isSpace).reverse

/-- A whole number in base sixteen. -/
def hexadecimal? (text : List Char) : Option Int :=
  let (negative, digits) := signOf (bodyOf text)
  (ofDigits? 16 0 false (withoutMark digits)).map fun value => if negative then -value else value

/-- A whole number in base ten, of at most `maxDigits` digits. -/
def decimal? (text : List Char) : Option Int :=
  let (negative, digits) := signOf (bodyOf text)
  if maxDigits < digits.countP (· != '_') then none
  else (ofDigits? 10 0 false digits).map fun value => if negative then -value else value

end XmlToJson.Numeral
