import XmlToJson.Json.Number
import XmlToJson.Json.Reader
import XmlToJson.Json.Writer
import XmlToJson.Log

/-!
# Settings

What a conversion can be told: whether scalars stay texts, how deep elements may nest, how long a
document may be, how the result is indented and which records are shown.

Settings are made from the members of an object.  A limit that is given has to be positive and an
indentation at least zero; the first field that is wrong, in the order of the fields, is the one
that is reported.  A value that is no number cannot be compared with zero, and the floating-point
value that is no number is neither positive nor at most zero, so it passes.
-/

namespace XmlToJson

/-- What a conversion can be told. -/
structure Settings where
  /-- Whether scalars stay texts; any value will do, and counts by its truth. -/
  keepStrings : Value := .bool false
  /-- The greatest depth of an element. -/
  maxNestingDepth : Number := .integer 512
  /-- The greatest length of a document in characters. -/
  maxInputLength : Option Number := none
  /-- The number of spaces for each level of the result. -/
  jsonIndent : Option Number := none
  /-- The least grave records that the command line shows. -/
  loggingLevel : LogLevel := .warning

/-- Why settings are refused. -/
inductive SettingsFault where
  /-- An object has members that are no settings. -/
  | unknownFields (names : List String)
  /-- A setting with the given name does not exist. -/
  | noSuchSetting (name : String)
  /-- A value of the given kind cannot be compared with zero by the given operator. -/
  | incomparable (operator kind : String)
  | depthNotPositive
  | lengthNotPositive
  | indentNegative
  | unknownLevel
  /-- A JSON text holds something other than an object. -/
  | notAnObject
  /-- A text is no JSON. -/
  | notJson (error : JsonError)
  deriving DecidableEq, Repr

namespace Settings

/-- The names of the settings in their order. -/
def fieldNames : List String :=
  ["keep_strings", "max_nesting_depth", "max_input_length", "json_indent", "logging_level"]

/-- The settings as the members of an object. -/
def toMembers (settings : Settings) : List (String × Value) :=
  [("keep_strings", settings.keepStrings),
    ("max_nesting_depth", settings.maxNestingDepth.toValue),
    ("max_input_length", (settings.maxInputLength.map Number.toValue).getD .null),
    ("json_indent", (settings.jsonIndent.map Number.toValue).getD .null),
    ("logging_level", .string settings.loggingLevel.name)]

def toValue (settings : Settings) : Value := .object settings.toMembers

/-- A number, or the reason why the value cannot be compared with zero. -/
def number (operator : String) (value : Value) : Except SettingsFault Number :=
  match Number.ofValue? value with
  | some number => .ok number
  | none => .error (.incomparable operator value.kindName)

/-- A depth, which has to be positive. -/
def depthOf (value : Value) : Except SettingsFault Number := do
  let depth ← number "<=" value
  if depth.isAtMost 0 then throw .depthNotPositive
  return depth

/-- A length, which has to be positive if there is one. -/
def lengthOf : Value → Except SettingsFault (Option Number)
  | .null => .ok none
  | value => do
      let length ← number "<=" value
      if length.isAtMost 0 then throw .lengthNotPositive
      return some length

/-- An indentation, which may not be negative if there is one. -/
def indentOf : Value → Except SettingsFault (Option Number)
  | .null => .ok none
  | value => do
      let indent ← number "<" value
      if indent.isBelow 0 then throw .indentNegative
      return some indent

/-- A level, which has to be the name of one. -/
def levelOf : Value → Except SettingsFault LogLevel
  | .string name =>
      match LogLevel.ofName? name with
      | some level => .ok level
      | none => .error .unknownLevel
  | _ => .error .unknownLevel

/-- The settings with the given values for all fields. -/
def ofValues (keepStrings depth length indent level : Value) : Except SettingsFault Settings := do
  let depth ← depthOf depth
  let length ← lengthOf length
  let indent ← indentOf indent
  let level ← levelOf level
  return {
    keepStrings := keepStrings
    maxNestingDepth := depth
    maxInputLength := length
    jsonIndent := indent
    loggingLevel := level }

/-- The settings with the fields in `changes` changed. -/
def override (settings : Settings) (changes : List (String × Value)) :
    Except SettingsFault Settings :=
  match changes.find? fun (name, _) => !fieldNames.contains name with
  | some (name, _) => .error (.noSuchSetting name)
  | none =>
      let object := Object.ofMembers (settings.toMembers ++ changes)
      let field := fun name => (object.get? name).getD .null
      ofValues (field "keep_strings") (field "max_nesting_depth") (field "max_input_length")
        (field "json_indent") (field "logging_level")

/-- The default settings with the given fields changed. -/
def ofFields (fields : List (String × Value)) : Except SettingsFault Settings :=
  override {} fields

/-- Names in the order of their characters. -/
def sortNames (names : List String) : List String :=
  names.mergeSort fun first second => first ≤ second

/-- The settings that the members of an object give; every member has to be a setting. -/
def ofMembers (members : List (String × Value)) : Except SettingsFault Settings :=
  match sortNames ((members.map (·.1)).filter fun name => !fieldNames.contains name) with
  | [] => ofFields members
  | unknown => .error (.unknownFields unknown)

/-- The settings that a JSON text gives. -/
def ofJson (host : Host) (text : String) : Except SettingsFault Settings :=
  match Value.ofJson host text with
  | .error error => .error (.notJson error)
  | .ok (.object members) => ofMembers members
  | .ok _ => .error .notAnObject

/-- The settings as a JSON text. -/
def toJson (layout : JsonLayout) (settings : Settings) : String :=
  settings.toValue.toJson { layout with ascii := true }

/-- The members of the settings, copied on a machine.  The settings themselves go into no levels, so
only the value that may be any counts. -/
def toDictionary (host : Host) (settings : Settings) :
    Except WritingFault (List (String × Value)) :=
  if host.copyingLevels < settings.keepStrings.nesting then .error .tooDeep
  else .ok settings.toMembers

/-- Writes a copy of the settings with the indentation that a value asks for. -/
def toIndentedJson (host : Host) (settings : Settings) (indent : Value) :
    Except WritingFault String := do
  let members ← settings.toDictionary host
  Value.printIndented host true (.object members) indent

/-- The settings that keep every scalar as a text. -/
def preserveStrings : Settings := { keepStrings := .bool true }

/-- The settings for documents from unknown sources. -/
def untrustedInput : Settings where
  maxNestingDepth := .integer 64
  maxInputLength := some (.integer (10 * 1024 * 1024))

/-- The settings that have a name, by their names. -/
def presets : List (String × Settings) :=
  [("default", {}), ("preserve_strings", preserveStrings), ("untrusted_input", untrustedInput)]

def preset? (name : String) : Option Settings := presets.lookup name

/-- Whether two settings count as the same. -/
def same (first second : Settings) : Bool :=
  first.toValue.same second.toValue

/-- The settings that keep scalars as texts if `keepStrings` asks for it. -/
def keepingStrings (settings : Settings) (keepStrings : Value) : Settings :=
  if keepStrings.isTruthy && !settings.keepStrings.isTruthy then
    { settings with keepStrings := .bool true }
  else settings

/-- How the result is written; an indentation that is no whole number has no meaning there. -/
def jsonLayout (host : Host) (settings : Settings) : Except IndentationFault JsonLayout :=
  JsonLayout.ofValue host ((settings.jsonIndent.map Number.toValue).getD .null)

/-- How the result is written if `indent` is given, which wins over the settings unless it is
null. -/
def layoutFor (host : Host) (settings : Settings) (indent : Value) :
    Except IndentationFault JsonLayout :=
  match indent with
  | .null => settings.jsonLayout host
  | indent => JsonLayout.ofValue host indent

end Settings

namespace SettingsFault

/-- A list of names in brackets, each in quotes. -/
def nameList (names : List String) : String :=
  "[" ++ ", ".intercalate (names.map fun name => s!"'{name}'") ++ "]"

def message : SettingsFault → String
  | .unknownFields names => "Unknown configuration fields: " ++ ", ".intercalate names
  | .noSuchSetting name => s!"got an unexpected keyword argument '{name}'"
  | .incomparable operator kind =>
      s!"'{operator}' not supported between instances of '{kind}' and 'int'"
  | .depthNotPositive => "max_nesting_depth must be > 0"
  | .lengthNotPositive => "max_input_length must be > 0 or None"
  | .indentNegative => "json_indent must be >= 0 or None"
  | .unknownLevel => "logging_level must be one of " ++ nameList (LogLevel.all.map LogLevel.name)
  | .notAnObject => "Configuration JSON must be an object"
  | .notJson error => error.message

/-- The setting that is at fault. -/
def field? : SettingsFault → Option String
  | .unknownFields names => names.head?
  | .depthNotPositive => some "max_nesting_depth"
  | .lengthNotPositive => some "max_input_length"
  | .indentNegative => some "json_indent"
  | .unknownLevel => some "logging_level"
  | _ => none

/-- What could be given instead. -/
def suggestions : SettingsFault → List String
  | .unknownFields _ => Settings.sortNames Settings.fieldNames
  | .unknownLevel => LogLevel.all.map LogLevel.name
  | _ => []

end SettingsFault

end XmlToJson
