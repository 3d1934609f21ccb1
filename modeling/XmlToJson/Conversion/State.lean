import XmlToJson.Failure
import XmlToJson.Log
import XmlToJson.Markup.Progress
import XmlToJson.Metrics
import XmlToJson.Scalar
import XmlToJson.Settings

/-!
# The state of a conversion

While a document is converted, the cursor moves through it, the counters grow and records are
written.  A step of the conversion changes this state, and returns something or fails; a step that
fails leaves the state as it was when it stopped.
-/

namespace XmlToJson

/-- Settings for converting any number of documents. -/
structure Converter where
  settings : Settings := {}
  /-- A mark that all records of the converter carry. -/
  correlationId : Option String := none
  /-- The machine that the conversion runs on. -/
  host : Host := {}

/-- Where the records of a converter come from. -/
def Converter.logger (converter : Converter) : Logger :=
  .named "xml_json_bridge.api.converter" converter.correlationId (some "xml_converter")

/-- What changes while a document is converted. -/
structure ConversionState where
  cursor : Cursor
  metrics : Metrics
  /-- The records that have been written, the first one first. -/
  log : List LogRecord

/-- The number of characters that are left to read. -/
def ConversionState.remaining (state : ConversionState) : Nat :=
  state.cursor.remaining

/-- A step of a conversion. -/
abbrev Step := EStateM Failure ConversionState

namespace Step

/-- A step of reading as a step of the conversion. -/
def scan {α : Type} (reading : Scan α) : Step α := fun state =>
  match reading state.cursor with
  | .ok value cursor => .ok value { state with cursor := cursor }
  | .error error cursor => .error (.refused (.malformed error)) { state with cursor := cursor }

def fault {α : Type} (problem : MarkupFault) : Step α :=
  scan (Scan.fail problem)

/-- Stops at a fault unless a condition holds. -/
def require (condition : Bool) (problem : MarkupFault) : Step Unit :=
  if condition then pure () else fault problem

/-- Changes the counters. -/
def count (change : Metrics → Metrics) : Step Unit := fun state =>
  .ok () { state with metrics := change state.metrics }

def log (record : LogRecord) : Step Unit := fun state =>
  .ok () { state with log := state.log ++ [record] }

/-- The value of the text of an attribute or an element. -/
def scalar (converter : Converter) (text : String) : Step Value :=
  if converter.settings.keepStrings.isTruthy then pure (.string text)
  else
    match Scalar.ofText text with
    | .ok value => pure value
    | .error .tooLong => throw .integerTooLong

end Step

end XmlToJson
