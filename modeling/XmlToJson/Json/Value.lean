import XmlToJson.Binary64.Text

/-!
# JSON values

The values that documents are converted to and that settings hold.  Whole numbers and
floating-point numbers are told apart, and so are two sorts of arrays: one that was given as it is,
and one that was gathered from several values with the same key.  Only the second sort grows when
another value comes in.  The members of an object stand in the order in which they came.
-/

namespace XmlToJson

/-- A JSON value. -/
inductive Value where
  | null
  | bool (value : Bool)
  | integer (value : Int)
  | float (value : Binary64)
  | string (value : String)
  /-- An array that was given as it is. -/
  | list (items : List Value)
  /-- An array that was gathered from values with the same key. -/
  | gathered (items : List Value)
  | object (members : List (String × Value))
  deriving Inhabited

namespace Value

/-- The name of the kind of a value in messages. -/
def kindName : Value → String
  | .null => "NoneType"
  | .bool _ => "bool"
  | .integer _ => "int"
  | .float _ => "float"
  | .string _ => "str"
  | .list _ => "list"
  | .gathered _ => "JSONArray"
  | .object _ => "dict"

/-- Whether a value counts as true: all do but null, false, zero and what is empty. -/
def isTruthy : Value → Bool
  | .null => false
  | .bool value => value
  | .integer value => value != 0
  | .float (.finite _ mantissa _) => mantissa != 0
  | .float _ => true
  | .string value => value != ""
  | .list items => !items.isEmpty
  | .gathered items => !items.isEmpty
  | .object members => !members.isEmpty

/-- Whether a value is an array or an object. -/
def isContainer : Value → Bool
  | .list _ | .gathered _ | .object _ => true
  | _ => false

/-- The whole number that a value stands for; a truth value counts as one or zero. -/
def asInteger? : Value → Option Int
  | .bool value => some (if value then 1 else 0)
  | .integer value => some value
  | _ => none

mutual

/-- The number of arrays and objects that stand in one another. -/
def nesting : Value → Nat
  | .list items | .gathered items => nestingOfItems items + 1
  | .object members => nestingOfMembers members + 1
  | _ => 0

def nestingOfItems : List Value → Nat
  | [] => 0
  | item :: rest => max item.nesting (nestingOfItems rest)

def nestingOfMembers : List (String × Value) → Nat
  | [] => 0
  | (_, value) :: rest => max value.nesting (nestingOfMembers rest)

end

mutual

/-- Whether two values count as the same.  Numbers are compared by what they stand for, a truth
value as one or zero, and the order of the members of an object does not matter. -/
def same : Value → Value → Bool
  | .null, .null => true
  | .string s, .string t => s == t
  | .list xs, .list ys | .list xs, .gathered ys | .gathered xs, .list ys
  | .gathered xs, .gathered ys => sameItems xs ys
  | .object xs, .object ys => xs.length == ys.length && sameMembers xs ys
  | .float x, .float y => x.same y
  | .float x, y =>
      match y.asInteger? with
      | some n => x.compareInt? n == some .eq
      | none => false
  | x, .float y =>
      match x.asInteger? with
      | some n => y.compareInt? n == some .eq
      | none => false
  | x, y =>
      match x.asInteger?, y.asInteger? with
      | some m, some n => m == n
      | _, _ => false

/-- Whether two arrays have the same items. -/
def sameItems : List Value → List Value → Bool
  | [], [] => true
  | x :: xs, y :: ys => same x y && sameItems xs ys
  | _, _ => false

/-- Whether every member of the first list is a member of the second. -/
def sameMembers : List (String × Value) → List (String × Value) → Bool
  | [], _ => true
  | (key, x) :: xs, ys =>
      (match ys.lookup key with
        | some y => same x y
        | none => false) && sameMembers xs ys

end

end Value

end XmlToJson
