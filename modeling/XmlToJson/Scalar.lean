import XmlToJson.Json.Value
import XmlToJson.Numeral.Literal

/-!
# Scalars

Which value the text of an attribute or an element stands for.  The spellings of true, false and
null count in any case; a number literal is a whole number or a floating-point number; everything
else stays a text.  A literal whose value is beyond every finite number stays a text too, and minus
zero is a floating-point number.  A whole number with too many digits cannot be read at all.
-/

namespace XmlToJson.Scalar

/-- A whole number has more digits than can be read. -/
inductive TooLong where
  | tooLong
  deriving DecidableEq, Repr

/-- The value of a word, in any case. -/
def word? (text : List Char) : Option Value :=
  match String.ofList (text.map Char.toLower) with
  | "true" => some (.bool true)
  | "false" => some (.bool false)
  | "null" => some .null
  | _ => none

/-- The literal that is the whole text. -/
def literal? (text : List Char) : Option Numeral.Literal :=
  match Numeral.Literal.read text with
  | some (literal, []) => some literal
  | _ => none

/-- Whether the first character of a text can begin a number literal. -/
def beginsLiteral : List Char → Bool
  | c :: _ => c == '-' || c.isDigit
  | [] => false

/-- The value of a number literal; any other text stays as it is. -/
def ofLiteral (text : String) : Except TooLong Value :=
  match literal? text.toList with
  | none => .ok (.string text)
  | some literal =>
      if text = "-0" then .ok (.float (.zero true))
      else if literal.isInteger then
        if Numeral.maxDigits < literal.whole.length then .error .tooLong
        else .ok (.integer literal.intValue)
      else
        let value := literal.floatValue
        .ok (if value.isFinite then .float value else .string text)

/-- The value that a text stands for. -/
def ofText (text : String) : Except TooLong Value :=
  match word? text.toList with
  | some value => .ok value
  | none =>
      -- The first character tells most texts from literals.
      if beginsLiteral text.toList then ofLiteral text else .ok (.string text)

end XmlToJson.Scalar
