import XmlToJson.Markup.Fault
import XmlToJson.Markup.Reference
import XmlToJson.Markup.Token
import XmlToJson.Text.Classes

/-!
# Reading tokens

A document is read with four ways of scanning: `nextToken` inside a tag, `nextContent` between
tags, `nextFragment` inside a declaration and `cdataText` inside a CDATA section.  A scan that
fails leaves the cursor where it stopped, so that reading can go on from there.

Every scan moves the cursor forward, and one that returns a token moves it past at least one
character.
-/

namespace XmlToJson

/-- A step of reading: it moves the cursor, and returns something or fails. -/
abbrev Scan := EStateM MarkupError Cursor

namespace Scan

/-- A failure of a scan that stopped at `cursor`. -/
def fail {α : Type} (fault : MarkupFault) (cursor : Cursor) :
    EStateM.Result MarkupError Cursor α :=
  .error ⟨fault, some cursor.position⟩ cursor

/-- The cursor behind the blanks that come next. -/
def skipBlanks (cursor : Cursor) : Cursor :=
  cursor.skip (cursor.rest.takeWhile Text.isBlank).length

/-- Whether a character begins and ends a quoted value. -/
def isQuote (c : Char) : Bool :=
  c == '"' || c == '\''

/-- Whether a character ends a bare name and belongs to the token after it. -/
def endsName (c : Char) : Bool :=
  c ∈ ['>', '/', '=', '!', '?', '[', ']']

/-- Whether a character may never stand in a bare name. -/
def isBadInName (c : Char) : Bool :=
  c == '<' || isQuote c

/-- Whether a character goes on with a bare name. -/
def isNameChar (c : Char) : Bool :=
  !(Text.isBlank c || endsName c || isBadInName c)

/-- Whether a character goes on with a fragment of a declaration. -/
def isFragmentChar (c : Char) : Bool :=
  !(Text.isBlank c || (Marker.ofChar? c).isSome || isQuote c)

/-- Steps back over the character that was read last. -/
def back : Scan Unit := fun cursor =>
  match cursor.back? with
  | some earlier => .ok () earlier
  | none => fail .pushedBackTwice cursor

/-- Resolves a reference whose first character, `opening`, has been read. -/
def reference (opening : String) : Scan String := fun cursor =>
  let name := cursor.rest.takeWhile Reference.isNameChar
  let stop := cursor.skipAndStep name.length
  match (cursor.skip name.length).rest with
  | ';' :: _ => .ok (String.ofList (Reference.expand name)) stop
  | _ => fail (.unterminatedReference opening (String.ofList name)) stop

/-- The fault of a reference in character data. -/
def brokenReference (name : List Char) : MarkupFault :=
  .unterminatedReference "&" (String.ofList name)

/-- Reads a quoted value up to `quote`, behind the opening quote. -/
def quotedValue (quote : Char) : Scan String := fun cursor =>
  let data := CharacterData.read quote cursor.rest
  let stop := cursor.skipAndStep data.length
  match data.ending with
  | .stopped => .ok (String.ofList data.decoded) stop
  | .exhausted => fail .unterminatedString stop
  | .brokenReference name => fail (brokenReference name) stop

/-- Reads a bare name, whose first character is next.  A blank that ends the name is read with
it. -/
def bareName : Scan String := fun cursor =>
  let name := cursor.rest.take 1 ++ (cursor.rest.drop 1).takeWhile isNameChar
  let text := String.ofList name
  match (cursor.skip name.length).rest with
  | [] => .ok text (cursor.skip name.length)
  | c :: _ =>
      -- A blank is gone with the name, while a marker is left for the next token.
      if Text.isBlank c then .ok text (cursor.skipAndStep name.length)
      else if endsName c then .ok text (cursor.skip name.length)
      else fail .badNameCharacter (cursor.skipAndStep name.length)

/-- Reads the next token inside a tag: a marker, a quoted value or a bare name. -/
def nextToken : Scan Token := fun cursor =>
  let start := skipBlanks cursor
  match start.rest with
  | [] => fail .missingToken start
  | c :: _ =>
      if c = '<' then fail .misplacedLess start.next.2
      else
        match Marker.ofChar? c with
        | some marker => .ok ⟨.marker marker, c.toString, start.position⟩ start.next.2
        | none =>
            if isQuote c then
              match quotedValue c start.next.2 with
              | .ok value stop => .ok ⟨.quoted, value, start.position⟩ stop
              | .error error stop => .error error stop
            else
              match bareName start with
              | .ok value stop => .ok ⟨.name, value, start.position⟩ stop
              | .error error stop => .error error stop

/-- Reads what comes next between two tags: a `<`, or the text before it with references replaced
and without the blanks around it.  At the end there is nothing. -/
def nextContent : Scan (Option Token) := fun cursor =>
  let start := skipBlanks cursor
  match start.rest with
  | [] => .ok none start
  | c :: _ =>
      if c = '<' then .ok (some ⟨.marker .less, c.toString, start.position⟩) start.next.2
      else
        let data := CharacterData.read '<' start.rest
        match data.ending with
        | .brokenReference name =>
            fail (brokenReference name) (start.skipAndStep data.length)
        | _ =>
            .ok (some ⟨.text, String.ofList (Text.trim data.decoded), start.position⟩)
              (start.skip data.length)

/-- Reads the next token of a declaration: a marker, or a fragment that is not looked into.  A
quoted run without its closing quote and the end of the text give nothing. -/
def nextFragment : Scan (Option Token) := fun cursor =>
  let start := skipBlanks cursor
  match start.rest with
  | [] => .ok none start
  | c :: rest =>
      match Marker.ofChar? c with
      | some marker => .ok (some ⟨.marker marker, c.toString, start.position⟩) start.next.2
      | none =>
          if isQuote c then
            -- References mean nothing here, so only the quote itself ends the run.
            match Text.indexOf? [c] rest with
            | none => .ok none start.skipAll
            | some length =>
                .ok (some ⟨.fragment, String.ofList (rest.take length), start.position⟩)
                  (start.skip (length + 2))
          else
            let run := c :: rest.takeWhile isFragmentChar
            let token := ⟨.fragment, String.ofList run, start.position⟩
            match (start.skip run.length).rest with
            | [] => .ok (some token) (start.skip run.length)
            | d :: _ =>
                .ok (some token)
                  (if Text.isBlank d then start.skipAndStep run.length else start.skip run.length)

/-- Reads the text of a CDATA section with the brackets that close it.  A section that is not
closed leaves the cursor where it is. -/
def cdataText : Scan String := fun cursor =>
  match Text.indexOf? "]]>".toList cursor.rest with
  | none => fail .unclosedCdata cursor
  | some length => .ok (String.ofList (cursor.rest.take length)) (cursor.skip (length + 3))

/-- Jumps past `literal`, which has to come. -/
def skipPast (literal : String) (fault : MarkupFault) : Scan Unit := fun cursor =>
  match cursor.skipPast literal with
  | (true, stop) => .ok () stop
  | (false, stop) => fail fault stop

end Scan

end XmlToJson
