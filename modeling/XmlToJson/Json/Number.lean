import XmlToJson.Json.Value

/-!
# Numbers in settings

A limit may be given as a whole number, as a floating-point number or as a truth value, which
counts as one or zero.
-/

namespace XmlToJson

/-- A number as a setting gives it. -/
inductive Number where
  | integer (value : Int)
  | float (value : Binary64)
  | truth (value : Bool)
  deriving DecidableEq, Repr

namespace Number

/-- The number that a value is, if it is one. -/
def ofValue? : Value → Option Number
  | .integer value => some (.integer value)
  | .float value => some (.float value)
  | .bool value => some (.truth value)
  | _ => none

def toValue : Number → Value
  | .integer value => .integer value
  | .float value => .float value
  | .truth value => .bool value

/-- How the number compares with a whole number, if it is a number at all. -/
def compareInt? : Number → Int → Option Ordering
  | .integer value, n => some (compare value n)
  | .float value, n => value.compareInt? n
  | .truth value, n => some (compare (if value then 1 else 0) n)

/-- Whether the number is less than a whole number. -/
def isBelow (number : Number) (n : Int) : Bool :=
  number.compareInt? n == some .lt

/-- Whether the number is at most a whole number. -/
def isAtMost (number : Number) (n : Int) : Bool :=
  number.compareInt? n == some .lt || number.compareInt? n == some .eq

/-- The text of the number in messages. -/
def text : Number → String
  | .integer value => toString value
  | .float value => value.toText
  | .truth value => if value then "True" else "False"

theorem isBelow_integer (value n : Int) :
    (Number.integer value).isBelow n = decide (value < n) := by
  simp only [isBelow, compareInt?, compare, compareOfLessAndEq]
  by_cases h : value < n
  · simp [h]
  · simp only [h, if_false, decide_false]
    split <;> rfl

theorem isAtMost_integer (value n : Int) :
    (Number.integer value).isAtMost n = decide (value ≤ n) := by
  simp only [isAtMost, compareInt?, compare, compareOfLessAndEq]
  split
  · next h => simp [Int.le_of_lt h]
  · next h =>
      split
      · next heq => simp [heq]
      · next hne => simp; omega

end Number

end XmlToJson
