import XmlToJson.Conversion.Tree

/-!
# Converting a document

A converter turns a document into an object: every outermost element contributes to it, and so does
every CDATA section outside the elements.  The result comes with the counters of the conversion and
the records that were written.  A document that is too long is refused before anything is written;
any other failure that a conversion reports is written down.
-/

namespace XmlToJson

/-- A converted document. -/
structure Conversion where
  data : Object
  metrics : Metrics
  correlationId : Option String

namespace Conversion

/-- The JSON text of the converted document. -/
def toJson (layout : JsonLayout) (conversion : Conversion) : String :=
  conversion.data.toValue.toJson layout

end Conversion

/-- What came of a conversion, and the records that were written. -/
structure Logged (α : Type) where
  outcome : α
  log : List LogRecord

namespace Converter

def startedRecord (converter : Converter) (length : Nat) : LogRecord :=
  converter.logger.record .debug "Starting XML to JSON conversion"
    [("content_length", .integer length), ("keep_strings", converter.settings.keepStrings)]

def completedRecord (converter : Converter) (metrics : Metrics) : LogRecord :=
  converter.logger.record .info "XML to JSON conversion completed"
    [("elements_converted", .integer metrics.elements),
      ("max_depth_reached", .integer metrics.depth)]

def failedRecord (converter : Converter) (error : ConversionError) : LogRecord :=
  converter.logger.record .warning "XML to JSON conversion failed"
    [("error", .string error.message), ("error_type", .string error.kindName)]

def initialState (converter : Converter) (text : String) : ConversionState where
  cursor := .ofText text
  metrics := { characters := text.length }
  log := [converter.startedRecord text.length]

/-- The limit on the length of a document that the text exceeds. -/
def exceededLimit? (converter : Converter) (text : String) : Option Number :=
  match converter.settings.maxInputLength with
  | none => none
  | some limit => if limit.isBelow text.length then some limit else none

/-- Converts a document. -/
def convert (converter : Converter) (text : String) : Logged (Except Failure Conversion) :=
  match converter.exceededLimit? text with
  | some limit => ⟨.error (.refused (.tooLong text.length limit)), []⟩
  | none =>
      match document converter .empty (converter.initialState text) with
      | .ok data state =>
          ⟨.ok ⟨data, state.metrics, converter.correlationId⟩,
            state.log ++ [converter.completedRecord state.metrics]⟩
      | .error (.refused error) state =>
          ⟨.error (.refused error), state.log ++ [converter.failedRecord error]⟩
      | .error .integerTooLong state => ⟨.error .integerTooLong, state.log⟩

end Converter

/-- Converts a document; scalars stay texts if `keepStrings` or the settings ask for it. -/
def convertToObject (host : Host) (settings : Settings) (keepStrings : Value) (text : String) :
    Except Failure Object :=
  let converter : Converter := { settings := settings.keepingStrings keepStrings, host }
  (converter.convert text).outcome.map Conversion.data

/-- Why a document gives no JSON text. -/
inductive OutputFailure where
  | failed (failure : Failure)
  | unwritable (fault : WritingFault)
  deriving DecidableEq, Repr

/-- Converts a document to JSON text.  An indentation that is given wins over the one in the
settings. -/
def convertToJson (host : Host) (settings : Settings) (keepStrings indent : Value)
    (text : String) : Except OutputFailure String :=
  match convertToObject host settings keepStrings text with
  | .error failure => .error (.failed failure)
  | .ok object =>
      (object.toValue.printWith host (settings.layoutFor host indent)).mapError .unwritable

end XmlToJson
