import XmlToJson.Entries
import XmlToJson.Json.Value

/-!
# Objects that gather

The object that an element is converted to.  Its keys stand in the order in which they were first
written.  `append` never overwrites: the second value of a key turns its slot into a gathered
array, which later values extend.
-/

namespace XmlToJson

/-- A list of members, at most one for each key. -/
structure Object where
  /-- The members in the order in which their keys were first written. -/
  members : List (String × Value)

namespace Object

def empty : Object := ⟨[]⟩

/-- The object as a value. -/
def toValue (object : Object) : Value := .object object.members

def size (object : Object) : Nat := object.members.length

def isEmpty (object : Object) : Bool := object.members.isEmpty

def get? (object : Object) (key : String) : Option Value := object.members.lookup key

/-- The keys in their order. -/
def keys (object : Object) : List String := object.members.map (·.1)

/-- Gives `key` a value; a key that is already there keeps its place. -/
def set (object : Object) (key : String) (value : Value) : Object :=
  ⟨Entries.set key value object.members⟩

/-- Adds a value for `key` without overwriting one. -/
def append (object : Object) (key : String) (value : Value) : Object :=
  match object.get? key with
  | none => object.set key value
  | some (.gathered items) => object.set key (.gathered (items ++ [value]))
  | some first => object.set key (.gathered [first, value])

/-- The object of a list of members that may repeat keys: a later value replaces an earlier one. -/
def ofMembers (members : List (String × Value)) : Object :=
  members.foldl (fun object (key, value) => object.set key value) empty

/-- The key of the text of an element. -/
def contentKey : String := "content"

/-- The value that an element is reduced to when it is closed: an empty text if it has no members,
its text if it has nothing else, and the whole object otherwise. -/
def fold (object : Object) : Value :=
  match object.members with
  | [] => .string ""
  | [(key, value)] => if key = contentKey then value else object.toValue
  | _ => object.toValue

/-- The value of an element that closes itself. -/
def foldSelfClosing (object : Object) : Value :=
  if object.isEmpty then .string "" else object.toValue

/-- Setting a key changes its value and no other. -/
@[simp] theorem get?_set (object : Object) (key other : String) (value : Value) :
    (object.set key value).get? other = if other = key then some value else object.get? other :=
  Entries.lookup_set key other value object.members

@[simp] theorem get?_empty (key : String) : empty.get? key = none := rfl

/-- The last of the members of an object is set last. -/
theorem ofMembers_concat (members : List (String × Value)) (key : String) (value : Value) :
    ofMembers (members ++ [(key, value)]) = (ofMembers members).set key value := by
  rw [ofMembers, List.foldl_append]
  rfl

end Object

end XmlToJson
