import XmlToJson.Position

/-!
# Tokens

The pieces that a document is made of: six markers of one character each, bare names, quoted
values, runs of text and the fragments of a declaration.
-/

namespace XmlToJson

/-- A character that is a token of its own. -/
inductive Marker where
  | less
  | greater
  | slash
  | equals
  | bang
  | question
  deriving DecidableEq, Repr

/-- The marker that a character is. -/
def Marker.ofChar? : Char → Option Marker
  | '<' => some .less
  | '>' => some .greater
  | '/' => some .slash
  | '=' => some .equals
  | '!' => some .bang
  | '?' => some .question
  | _ => none

/-- What a token is. -/
inductive TokenKind where
  /-- One of the characters `<`, `>`, `/`, `=`, `!` and `?`. -/
  | marker (marker : Marker)
  /-- A bare name: of a tag or an attribute, or a value without quotes. -/
  | name
  /-- A quoted value; its text stands without the quotes. -/
  | quoted
  /-- The text between two tags. -/
  | text
  /-- A piece of a declaration that is not looked into. -/
  | fragment
  deriving DecidableEq, Repr

/-- A token: what it is, its text and where it starts. -/
structure Token where
  kind : TokenKind
  value : String
  position : Position
  deriving DecidableEq, Repr

namespace Token

def isMarker (token : Token) : Bool :=
  match token.kind with
  | .marker _ => true
  | _ => false

/-- Whether the token can name a tag or an attribute or be a value. -/
def isIdentifier (token : Token) : Bool :=
  token.kind == .name || token.kind == .quoted

/-- Whether the token is the given marker. -/
def isThe (marker : Marker) (token : Token) : Bool :=
  token.kind == .marker marker

end Token

end XmlToJson
