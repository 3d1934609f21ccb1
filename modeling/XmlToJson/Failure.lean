import XmlToJson.Json.Number
import XmlToJson.Markup.Fault

/-!
# Failures of a conversion

A document can be malformed, nest too deeply or be too long.  These are the failures that a
conversion reports; a whole number with too many digits is none of them, and ends everything.
-/

namespace XmlToJson

/-- Why a document cannot be converted. -/
inductive ConversionError where
  | malformed (error : MarkupError)
  /-- Elements nest deeper than `limit`.  The element that is too deep is named, unless the limit is
  the one that no setting can raise. -/
  | tooDeep (limit : Number) (tag : Option String) (position : Option Position)
  /-- The document has more characters than the limit. -/
  | tooLong (length : Int) (limit : Number)
  deriving DecidableEq, Repr

namespace ConversionError

/-- The name of the kind of an error in records. -/
def kindName : ConversionError → String
  | .malformed _ => "XMLSyntaxError"
  | .tooDeep .. => "NestingDepthError"
  | .tooLong .. => "InputTooLargeError"

/-- The text of an error without its place. -/
def plainMessage : ConversionError → String
  | .malformed error => error.fault.message
  | .tooDeep limit tag _ =>
      let place :=
        match tag with
        | some tag => s!" at <{tag}>"
        | none => ""
      s!"Maximum nesting depth {limit.text} exceeded" ++ place
  | .tooLong length limit =>
      s!"Input length {length} exceeds maximum of {limit.text} characters"

/-- The place of an error; one that is about a whole document has none. -/
def position? : ConversionError → Option Position
  | .malformed error => error.position
  | .tooDeep _ _ position => position
  | .tooLong .. => none

/-- The text of an error with its place. -/
def message (error : ConversionError) : String :=
  messageAt error.plainMessage error.position?

end ConversionError

/-- Why a conversion ends without a result. -/
inductive Failure where
  | refused (error : ConversionError)
  /-- A whole number in the document has too many digits to be read. -/
  | integerTooLong
  deriving DecidableEq, Repr

end XmlToJson
