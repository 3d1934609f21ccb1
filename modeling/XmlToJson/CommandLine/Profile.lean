import XmlToJson.Files.Reading
import XmlToJson.Settings

/-!
# Configuration files

A configuration file holds an object.  It may name a preset under `preset`, change single settings
under `converter`, and name the encoding of the documents under `encoding`.  A file that is not
there, and one that is wrong in any way, leaves everything as it is by default; only one with too
many levels ends the run.
-/

namespace XmlToJson

/-- What a configuration file gives. -/
structure Profile where
  settings : Settings := {}
  /-- The encoding of the documents; it is looked at when a document is read. -/
  encoding : Value := .string "utf-8"

/-- What is wrong with a configuration file. -/
inductive ProfileFault where
  | unreadable (fault : ReadingFault)
  | notJson (error : JsonError)
  | notAnObject
  /-- A preset is named by a value that no preset has. -/
  | unknownPreset (shown : String)
  /-- A preset is named by an array or an object. -/
  | presetNotAName (kind : String)
  /-- The changes are no object. -/
  | changesNotAnObject (kind : String)
  | badSettings (fault : SettingsFault)
  deriving DecidableEq, Repr

namespace ProfileFault

def message : ProfileFault → String
  | .unreadable fault => fault.message
  | .notJson error => error.message
  | .notAnObject => "Configuration file must contain a JSON object"
  | .unknownPreset shown => "Unknown preset: " ++ shown
  | .presetNotAName kind => s!"unhashable type: '{kind}'"
  | .changesNotAnObject kind => s!"'{kind}' object is not a mapping"
  | .badSettings fault => fault.message

end ProfileFault

namespace Profile

/-- How a value that is no array and no object is shown in a message. -/
def showValue : Value → String
  | .string text => text
  | .integer value => toString value
  | .float value => value.toText
  | .bool value => if value then "True" else "False"
  | _ => "None"

/-- The settings of the preset that a value names; null names the default one. -/
def presetOf : Value → Except ProfileFault Settings
  | .null => .ok {}
  | .string name =>
      match Settings.preset? name with
      | some settings => .ok settings
      | none => .error (.unknownPreset name)
  | value =>
      if value.isContainer then .error (.presetNotAName value.kindName)
      else .error (.unknownPreset (showValue value))

/-- Settings with the changes that a value describes; one that does not count as true describes
none. -/
def changed (settings : Settings) (changes : Value) : Except ProfileFault Settings :=
  if !changes.isTruthy then .ok settings
  else
    match changes with
    | .object members =>
        (Settings.ofMembers (settings.toMembers ++ members)).mapError .badSettings
    | value => .error (.changesNotAnObject value.kindName)

/-- What the members of the object in a configuration file give. -/
def ofMembers (members : List (String × Value)) : Except ProfileFault Profile := do
  let preset ← presetOf ((members.lookup "preset").getD .null)
  let settings ← changed preset ((members.lookup "converter").getD .null)
  return { settings, encoding := (members.lookup "encoding").getD (.string "utf-8") }

/-- What the text of a configuration file gives. -/
def ofJson (host : Host) (text : String) : Except ProfileFault Profile :=
  match Value.ofJson host text with
  | .error error => .error (.notJson error)
  | .ok (.object members) => ofMembers members
  | .ok _ => .error .notAnObject

/-- What a configuration file that is there gives. -/
def read (host : Host) (files : FileTree) (path : Path) : Except ProfileFault Profile := do
  let text ← (files.readText host path (.string "utf-8")).mapError .unreadable
  ofJson host text

end Profile

end XmlToJson
