import XmlToJson.Host
import XmlToJson.Json.Object

/-!
# Writing JSON

A value is written on one line, with a space after each comma and colon, or with each item on a
line of its own that is indented by its depth.  Empty arrays and objects always stay on one line.
Texts are written as they are, control characters, quotes and backslashes apart; with `ascii` every
other character that is not printable ASCII is written as an escape too.

Each writing function puts its text in front of a text that follows.  What they write is the text of
a value (`Value.toJson`) whatever the machine is.  A machine writes it (`Value.print`) unless the
value has too many levels or the text, or the indentation of a line in it, would be too long.
-/

namespace XmlToJson

/-- What each level of depth puts in front of a line. -/
inductive Indentation where
  | spaces (count : Nat)
  | text (unit : List Char)
  deriving DecidableEq, Repr

/-- What stands in front of a line at the given depth. -/
def Indentation.at (depth : Nat) : Indentation → List Char
  | .spaces count => List.replicate (depth * count) ' '
  | .text unit => (List.replicate depth unit).flatten

/-- Why a setting asks for no indentation that there is. -/
inductive IndentationFault where
  /-- The setting is neither a whole number nor a text. -/
  | notANumber
  /-- The number needs more than 64 bits. -/
  | outOfRange
  /-- A text of that many spaces would be too long. -/
  | tooWide
  deriving DecidableEq, Repr

def IndentationFault.message : IndentationFault → String
  | .notANumber => "the indentation has to be a whole number"
  | .outOfRange | .tooWide => "the indentation is too wide"

/-- How a value is written. -/
structure JsonLayout where
  /-- The indentation of lines, or nothing for writing on one line. -/
  indentation : Option Indentation := none
  /-- Whether everything beyond printable ASCII is escaped. -/
  ascii : Bool := false

namespace JsonLayout

/-- Writing on one line, texts as they are. -/
def compact : JsonLayout := {}

/-- Writing with the given number of spaces for each level; a negative number counts as none. -/
def spaces (count : Int) : JsonLayout :=
  { indentation := some (.spaces count.toNat) }

/-- The bound on whole numbers of 64 bits. -/
def wordBound : Int := 0x8000000000000000

/-- Writing with a number of spaces that a setting gives. -/
def ofInt (host : Host) (count : Int) : Except IndentationFault JsonLayout :=
  if count < -wordBound ∨ wordBound ≤ count then .error .outOfRange
  else if host.textLength < count then .error .tooWide
  else .ok (spaces count)

/-- The layout that a setting for the indentation asks for: null for one line, a number of spaces,
or a text that stands for each level.  A truth value counts as a number; other values have no
meaning here. -/
def ofValue (host : Host) : Value → Except IndentationFault JsonLayout
  | .null => .ok compact
  | .string unit => .ok { indentation := some (.text unit.toList) }
  | value =>
      match value.asInteger? with
      | some count => ofInt host count
      | none => .error .notANumber

/-- The start of a new line at the given depth. -/
def newLine (layout : JsonLayout) (depth : Nat) : List Char :=
  match layout.indentation with
  | none => []
  | some indentation => '\n' :: indentation.at depth

/-- What stands between two items. -/
def separator (layout : JsonLayout) (depth : Nat) : List Char :=
  match layout.indentation with
  | none => [',', ' ']
  | some _ => ',' :: layout.newLine depth

end JsonLayout

namespace Value

/-- A code unit as an escape of four digits. -/
def unitEscape (code : Nat) : List Char :=
  let digits := Nat.toDigits 16 code
  '\\' :: 'u' :: List.replicate (4 - digits.length) '0' ++ digits

/-- A character beyond ASCII as an escape, or as two if it has two code units. -/
def charEscape (code : Nat) : List Char :=
  if code < 0x10000 then unitEscape code
  else
    unitEscape (0xD800 + (code - 0x10000) / 0x400) ++ unitEscape (0xDC00 + (code - 0x10000) % 0x400)

/-- A character inside a text. -/
def escape (ascii : Bool) (c : Char) : List Char :=
  if c = '"' then ['\\', '"']
  else if c = '\\' then ['\\', '\\']
  else if c = '\n' then ['\\', 'n']
  else if c = '\r' then ['\\', 'r']
  else if c = '\t' then ['\\', 't']
  else if c.toNat = 8 then ['\\', 'b']
  else if c.toNat = 12 then ['\\', 'f']
  else if c.toNat < 32 ∨ (ascii ∧ 127 ≤ c.toNat) then charEscape c.toNat
  else [c]

/-- A text in quotes. -/
def writeText (ascii : Bool) (text : String) (following : List Char) : List Char :=
  '"' :: text.toList.flatMap (escape ascii) ++ '"' :: following

mutual

/-- A value at the given depth. -/
def write (layout : JsonLayout) (depth : Nat) : Value → List Char → List Char
  | .null, following => "null".toList ++ following
  | .bool true, following => "true".toList ++ following
  | .bool false, following => "false".toList ++ following
  | .integer value, following => (toString value).toList ++ following
  | .float value, following => value.text "Infinity" "NaN" ++ following
  | .string text, following => writeText layout.ascii text following
  | .list [], following | .gathered [], following => '[' :: ']' :: following
  | .list items, following | .gathered items, following =>
      '[' :: writeItems layout (depth + 1) (layout.newLine (depth + 1)) items
        (layout.newLine depth ++ ']' :: following)
  | .object [], following => '{' :: '}' :: following
  | .object members, following =>
      '{' :: writeMembers layout (depth + 1) (layout.newLine (depth + 1)) members
        (layout.newLine depth ++ '}' :: following)

/-- The items of an array; `before` stands in front of the first. -/
def writeItems (layout : JsonLayout) (depth : Nat) (before : List Char) :
    List Value → List Char → List Char
  | [], following => following
  | item :: rest, following =>
      before ++ write layout depth item
        (writeItems layout depth (layout.separator depth) rest following)

/-- The members of an object; `before` stands in front of the first. -/
def writeMembers (layout : JsonLayout) (depth : Nat) (before : List Char) :
    List (String × Value) → List Char → List Char
  | [], following => following
  | (key, value) :: rest, following =>
      before ++ writeText layout.ascii key
        (':' :: ' ' :: write layout depth value
          (writeMembers layout depth (layout.separator depth) rest following))

end

/-- The JSON text of a value. -/
def toJson (layout : JsonLayout) (value : Value) : String :=
  String.ofList (value.write layout 0 [])

end Value

/-! ## Writing on a machine -/

/-- Why a machine does not write a value. -/
inductive WritingFault where
  | badIndentation (fault : IndentationFault)
  /-- The value has too many levels. -/
  | tooDeep
  /-- The text would be too long. -/
  | tooLong
  deriving DecidableEq, Repr

def WritingFault.message : WritingFault → String
  | .badIndentation fault => fault.message
  | .tooDeep => "the value has too many levels"
  | .tooLong => "the text is too long"

namespace Value

/-- Writes a value on a machine. -/
def print (host : Host) (layout : JsonLayout) (value : Value) : Except WritingFault String :=
  if host.writingLevels layout.indentation.isSome < value.nesting then .error .tooDeep
  else
    let text := value.toJson layout
    if host.textLength < text.length then .error .tooLong else .ok text

/-- Writes a value with a layout, if there is one. -/
def printWith (host : Host) (layout : Except IndentationFault JsonLayout) (value : Value) :
    Except WritingFault String := do
  value.print host (← layout.mapError .badIndentation)

/-- Writes a value with the indentation that a setting asks for, which does not matter for a
text. -/
def printIndented (host : Host) (ascii : Bool) (value indent : Value) :
    Except WritingFault String :=
  match value with
  | .string text => print host { ascii } (.string text)
  | value =>
      value.printWith host ((JsonLayout.ofValue host indent).map fun layout =>
        { layout with ascii })

end Value

end XmlToJson
