import XmlToJson.Position

/-!
# Faults in markup

What can be wrong with a document, and the text that says so.  A fault is reported together with
the place where reading stopped.
-/

namespace XmlToJson

/-- What is wrong with a document. -/
inductive MarkupFault where
  /-- The document ends where a token of a tag is expected. -/
  | missingToken
  /-- A `<` stands inside a tag. -/
  | misplacedLess
  | unterminatedString
  /-- A `<` or a quote stands in a bare name. -/
  | badNameCharacter
  /-- The reference that begins with `opening` and goes on with `name` has no semicolon. -/
  | unterminatedReference (opening name : String)
  | unclosedCdata
  | unclosedInstruction
  | unclosedComment
  | unclosedDeclaration
  | unclosedElement (tag : String)
  /-- A close tag stands outside every element. -/
  | strayCloseTag (found : String)
  /-- The close tag of the element `tag` names something else. -/
  | mismatchedCloseTag (tag found : String)
  | misshapenCloseTag
  | misshapenTag
  /-- An attribute has an equals sign and no value. -/
  | missingValue
  /-- A section in brackets is not a CDATA section. -/
  | notCdata
  /-- Two characters were pushed back. -/
  | pushedBackTwice
  /-- A fault that the caller describes. -/
  | described (message : String)
  deriving DecidableEq, Repr

def MarkupFault.message : MarkupFault → String
  | .missingToken => "Misshaped element"
  | .misplacedLess => "Misplaced '<'"
  | .unterminatedString => "Unterminated string"
  | .badNameCharacter => "Bad character in a name"
  | .unterminatedReference opening name => s!"Missing ';' in XML entity: {opening}{name}"
  | .unclosedCdata => "Unclosed CDATA"
  | .unclosedInstruction => "Unclosed processing instruction"
  | .unclosedComment => "Unclosed comment"
  | .unclosedDeclaration => "Missing '>' after '<!'."
  | .unclosedElement tag => s!"Unclosed tag {tag}"
  | .strayCloseTag found => s!"Mismatched close tag {found}"
  | .mismatchedCloseTag tag found => s!"Mismatched {tag} and {found}"
  | .misshapenCloseTag => "Misshaped close tag"
  | .misshapenTag => "Misshaped tag"
  | .missingValue => "Missing value"
  | .notCdata => "Expected 'CDATA['"
  | .pushedBackTwice => "Stepping back two steps is not supported"
  | .described message => message

/-- A message, and the place that it is about if there is one. -/
def messageAt (message : String) : Option Position → String
  | none => message
  | some position => s!"{message} at {position.describe}"

/-- A fault and the place where reading stopped. -/
structure MarkupError where
  fault : MarkupFault
  position : Option Position
  deriving DecidableEq, Repr

def MarkupError.message (error : MarkupError) : String :=
  messageAt error.fault.message error.position

end XmlToJson
