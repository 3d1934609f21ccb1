import XmlToJson.Host
import XmlToJson.Json.Object
import XmlToJson.Numeral.Literal
import XmlToJson.Position

/-!
# Reading JSON

A JSON text is read with its numbers as they are written: a literal without fraction and exponent
is a whole number, any other a floating-point number.  `NaN`, `Infinity` and `-Infinity` are read
as well.  Of several members with one key the last counts, at the place of the first.  Arrays and
objects may be nested up to the number of levels that the machine can open.

A text is made of characters, and half a pair of code units is no character.  So texts that hold
one are outside of what is described here, whether they come from an escape in JSON, from a codec,
from the name of a file or from a caller: an escape for half a pair is read as the replacement
character, so that reading goes on, but nothing is claimed of the text that it stands in.

A step of reading returns what follows, which is shorter than what it began with; the reading of
nested values ends for that reason.
-/

namespace XmlToJson

/-- What is wrong with a JSON text. -/
inductive JsonFault where
  | byteOrderMark
  | expectedValue
  | expectedKey
  | expectedColon
  | expectedComma
  | extraData
  | unterminatedText
  | controlCharacter
  | unknownEscape
  | badUnicodeEscape
  /-- A whole number has the given number of digits, which are too many. -/
  | integerTooLong (digits : Nat)
  /-- Too many arrays and objects stand inside each other. -/
  | tooDeep
  deriving DecidableEq, Repr

def JsonFault.message : JsonFault → String
  | .byteOrderMark => "Unexpected UTF-8 BOM (decode using utf-8-sig)"
  | .expectedValue => "Expecting value"
  | .expectedKey => "Expecting property name enclosed in double quotes"
  | .expectedColon => "Expecting ':' delimiter"
  | .expectedComma => "Expecting ',' delimiter"
  | .extraData => "Extra data"
  | .unterminatedText => "Unterminated string starting at"
  | .controlCharacter => "Invalid control character at"
  | .unknownEscape => "Invalid \\escape"
  | .badUnicodeEscape => "Invalid \\uXXXX escape"
  | .integerTooLong digits =>
      s!"Exceeds the limit ({Numeral.maxDigits} digits) for integer string conversion: " ++
        s!"value has {digits} digits; use sys.set_int_max_str_digits() to increase the limit"
  | .tooDeep => "Too many levels"

/-- A fault of a JSON text and its place. -/
structure JsonError where
  fault : JsonFault
  position : Position
  deriving DecidableEq, Repr

/-- The text of a fault with its place; the length of a number has none. -/
def JsonError.message (error : JsonError) : String :=
  match error.fault with
  | .integerTooLong _ => error.fault.message
  | fault =>
      let place := error.position
      s!"{fault.message}: line {place.line} column {place.column} (char {place.offset})"

namespace JsonReader

/-- A fault, and the text from its place on. -/
structure Failure where
  fault : JsonFault
  rest : List Char

/-- What was read at the beginning of `text`, and what follows it. -/
structure Reading (α : Type) (text : List Char) where
  value : α
  rest : List Char
  shorter : rest.length < text.length

/-- Whether a character may stand between the parts of a JSON text. -/
def isSpace (c : Char) : Bool :=
  c == ' ' || c == '\t' || c == '\n' || c == '\r'

/-- A text without the spaces that it begins with. -/
def skipSpaces (text : List Char) : List Char :=
  text.dropWhile isSpace

/-- The first character of a text that is no space, and what follows it. -/
def mark? (text : List Char) : Option (Reading Char text) :=
  match h : skipSpaces text with
  | [] => none
  | c :: rest =>
      some ⟨c, rest, by
        have hle : (skipSpaces text).length ≤ text.length :=
          (List.dropWhile_sublist _).length_le
        rw [h, List.length_cons] at hle
        omega⟩

/-- The character that a short escape stands for. -/
def shortEscape? : Char → Option Char
  | '"' => some '"'
  | '\\' => some '\\'
  | '/' => some '/'
  | 'b' => some '\x08'
  | 'f' => some '\x0c'
  | 'n' => some '\n'
  | 'r' => some '\r'
  | 't' => some '\t'
  | _ => none

/-- The code unit that four digits stand for. -/
def codeUnit? (a b c d : Char) : Option Nat := do
  let a ← Numeral.digit? 16 a
  let b ← Numeral.digit? 16 b
  let c ← Numeral.digit? 16 c
  let d ← Numeral.digit? 16 d
  return ((a * 16 + b) * 16 + c) * 16 + d

/-- Whether a code unit is the first of a pair. -/
def isHighUnit (unit : Nat) : Bool := 0xD800 ≤ unit && unit < 0xDC00

/-- Whether a code unit is the second of a pair. -/
def isLowUnit (unit : Nat) : Bool := 0xDC00 ≤ unit && unit < 0xE000

/-- The character of a code unit.  One that is half a pair has none, and is read as the replacement
character. -/
def charOfUnit (unit : Nat) : Char :=
  if 0xD800 ≤ unit ∧ unit < 0xE000 then '\uFFFD' else Char.ofNat unit

/-- The character of a pair of code units. -/
def charOfPair (high low : Nat) : Char :=
  Char.ofNat (0x10000 + (high - 0xD800) * 0x400 + (low - 0xDC00))

/-- Reads a text up to its closing quote.  `opening` is the text from the opening quote on and
`done` holds the characters read so far, the last one first. -/
def readText (opening done : List Char) : List Char → Except Failure (String × List Char)
  | [] => .error ⟨.unterminatedText, opening⟩
  | '"' :: rest => .ok (String.ofList done.reverse, rest)
  | ['\\'] => .error ⟨.unterminatedText, opening⟩
  | '\\' :: 'u' :: a :: b :: c :: d :: next :: rest =>
      match codeUnit? a b c d with
      | none => .error ⟨.badUnicodeEscape, 'u' :: a :: b :: c :: d :: next :: rest⟩
      | some unit =>
          match next, rest with
          | '\\', 'u' :: e :: f :: g :: h :: after :: rest =>
              if isHighUnit unit then
                match codeUnit? e f g h with
                | none => .error ⟨.badUnicodeEscape, 'u' :: e :: f :: g :: h :: after :: rest⟩
                | some low =>
                    if isLowUnit low then
                      readText opening (charOfPair unit low :: done) (after :: rest)
                    else
                      readText opening (charOfUnit unit :: done)
                        ('\\' :: 'u' :: e :: f :: g :: h :: after :: rest)
              else
                readText opening (charOfUnit unit :: done)
                  ('\\' :: 'u' :: e :: f :: g :: h :: after :: rest)
          | next, rest => readText opening (charOfUnit unit :: done) (next :: rest)
  | '\\' :: 'u' :: rest => .error ⟨.badUnicodeEscape, 'u' :: rest⟩
  | '\\' :: c :: rest =>
      match shortEscape? c with
      | some escaped => readText opening (escaped :: done) rest
      | none => .error ⟨.unknownEscape, '\\' :: c :: rest⟩
  | c :: rest =>
      if c.toNat < 32 then .error ⟨.controlCharacter, c :: rest⟩
      else readText opening (c :: done) rest
  termination_by text => text.length

/-- Reading a text consumes its closing quote. -/
theorem length_lt_of_readText {opening done text following : List Char} {value : String}
    (h : readText opening done text = .ok (value, following)) :
    following.length < text.length := by
  fun_induction readText opening done text <;> simp_all <;> omega

/-- Reads a text behind its opening quote. -/
def readTextAfter (text : List Char) : Except Failure (Reading String text) :=
  match h : readText ('"' :: text) [] text with
  | .ok (value, following) => .ok ⟨value, following, length_lt_of_readText h⟩
  | .error failure => .error failure

/-- The words that stand for a value. -/
def words : List (String × Value) :=
  [("null", .null), ("true", .bool true), ("false", .bool false), ("NaN", .float .nan),
    ("Infinity", .float (.infinite false)), ("-Infinity", .float (.infinite true))]

/-- The value of the word that a text begins with, and what follows the word. -/
def readWord? (text : List Char) : Option (Value × List Char) :=
  words.findSome? fun (word, value) =>
    if word.toList.isPrefixOf text then some (value, text.drop word.length) else none

/-- The number that a text begins with, and what follows it. -/
def readNumber (text : List Char) : Except Failure (Value × List Char) :=
  match Numeral.Literal.read text with
  | none => .error ⟨.expectedValue, text⟩
  | some (literal, following) =>
      if !literal.isInteger then .ok (.float literal.floatValue, following)
      else if Numeral.maxDigits < literal.whole.length then
        .error ⟨.integerTooLong literal.whole.length, text⟩
      else .ok (.integer literal.intValue, following)

theorem length_lt_of_readNumber {text following : List Char} {value : Value}
    (h : readNumber text = .ok (value, following)) : following.length < text.length := by
  unfold readNumber at h
  split at h
  · simp at h
  · next literal after hread =>
      have := Numeral.Literal.length_lt_of_read hread
      split at h
      · simp_all
      · split at h <;> simp_all

theorem length_lt_of_readWord? {text following : List Char} {value : Value}
    (h : readWord? text = some (value, following)) : following.length < text.length := by
  obtain ⟨⟨word, meaning⟩, hword, hread⟩ := List.exists_of_findSome?_eq_some h
  have hpos : 0 < word.length := by
    simp only [words, List.mem_cons, Prod.mk.injEq, List.not_mem_nil, or_false] at hword
    rcases hword with h | h | h | h | h | h <;> (obtain ⟨rfl, -⟩ := h; decide)
  simp only [Option.ite_none_right_eq_some, Option.some.injEq, Prod.mk.injEq] at hread
  obtain ⟨hfront, -, rfl⟩ := hread
  have hle := ( List.isPrefixOf_iff_prefix.1 hfront).length_le
  rw [String.length_toList] at hle
  rw [List.length_drop]
  omega

/-- A word or a number. -/
def readScalar (text : List Char) : Except Failure (Reading Value text) :=
  match hword : readWord? text with
  | some (value, following) => .ok ⟨value, following, length_lt_of_readWord? hword⟩
  | none =>
      match hnumber : readNumber text with
      | .ok (value, following) => .ok ⟨value, following, length_lt_of_readNumber hnumber⟩
      | .error failure => .error failure

mutual

/-- Reads the value that a text begins with; `levels` more levels may be opened in it. -/
def readValue (levels : Nat) (text : List Char) : Except Failure (Reading Value text) :=
  match mark? text with
  | none => .error ⟨.expectedValue, []⟩
  | some ⟨'"', rest, inside⟩ =>
      match readTextAfter rest with
      | .error failure => .error failure
      | .ok ⟨value, following, shorter⟩ => .ok ⟨.string value, following, by omega⟩
  | some ⟨'[', rest, inside⟩ =>
      match levels, mark? rest with
      | 0, _ => .error ⟨.tooDeep, '[' :: rest⟩
      | _ + 1, some ⟨']', following, shorter⟩ => .ok ⟨.list [], following, by omega⟩
      | levels + 1, _ =>
          match readItems levels rest with
          | .error failure => .error failure
          | .ok ⟨items, following, shorter⟩ => .ok ⟨.list items, following, by omega⟩
  | some ⟨'{', rest, inside⟩ =>
      match levels, mark? rest with
      | 0, _ => .error ⟨.tooDeep, '\x7b' :: rest⟩
      | _ + 1, some ⟨'}', following, shorter⟩ => .ok ⟨.object [], following, by omega⟩
      | levels + 1, _ =>
          match readMembers levels rest with
          | .error failure => .error failure
          | .ok ⟨members, following, shorter⟩ =>
              .ok ⟨(Object.ofMembers members).toValue, following, by omega⟩
  | some ⟨c, rest, inside⟩ =>
      match readScalar (c :: rest) with
      | .error failure => .error failure
      | .ok ⟨value, following, shorter⟩ =>
          .ok ⟨value, following, by rw [List.length_cons] at shorter; omega⟩
  termination_by (text.length, 0)

/-- Reads the items of an array and the bracket that closes it. -/
def readItems (levels : Nat) (text : List Char) : Except Failure (Reading (List Value) text) :=
  match readValue levels text with
  | .error failure => .error failure
  | .ok ⟨item, behind, inside⟩ =>
      match mark? behind with
      | some ⟨']', following, shorter⟩ => .ok ⟨[item], following, by omega⟩
      | some ⟨',', rest, shorter⟩ =>
          match readItems levels rest with
          | .error failure => .error failure
          | .ok ⟨items, following, further⟩ => .ok ⟨item :: items, following, by omega⟩
      | _ => .error ⟨.expectedComma, skipSpaces behind⟩
  termination_by (text.length, 1)

/-- Reads the members of an object and the brace that closes it. -/
def readMembers (levels : Nat) (text : List Char) :
    Except Failure (Reading (List (String × Value)) text) :=
  match mark? text with
  | some ⟨'"', opened, inside⟩ =>
      match readTextAfter opened with
      | .error failure => .error failure
      | .ok ⟨key, named, afterKey⟩ =>
          match mark? named with
          | some ⟨':', rest, afterColon⟩ =>
              match readValue levels rest with
              | .error failure => .error failure
              | .ok ⟨value, behind, afterValue⟩ =>
                  match mark? behind with
                  | some ⟨'}', following, shorter⟩ => .ok ⟨[(key, value)], following, by omega⟩
                  | some ⟨',', rest, shorter⟩ =>
                      match readMembers levels rest with
                      | .error failure => .error failure
                      | .ok ⟨members, following, further⟩ =>
                          .ok ⟨(key, value) :: members, following, by omega⟩
                  | _ => .error ⟨.expectedComma, skipSpaces behind⟩
          | _ => .error ⟨.expectedColon, skipSpaces named⟩
  | _ => .error ⟨.expectedKey, skipSpaces text⟩
  termination_by (text.length, 1)

end

/-- Reads a text that holds one value and nothing else. -/
def readWhole (levels : Nat) (text : List Char) : Except Failure Value :=
  match text with
  | '\uFEFF' :: _ => .error ⟨.byteOrderMark, text⟩
  | _ =>
      match readValue levels text with
      | .error failure => .error failure
      | .ok ⟨value, following, _⟩ =>
          match skipSpaces following with
          | [] => .ok value
          | rest => .error ⟨.extraData, rest⟩

/-! ## One step of reading -/

section Steps

variable {levels : Nat} {text opened named rest behind following : List Char}
  {inside : opened.length < text.length}

theorem readTextAfter_eq {value : String}
    (h : readText ('"' :: text) [] text = .ok (value, following)) :
    readTextAfter text = .ok ⟨value, following, length_lt_of_readText h⟩ := by
  unfold readTextAfter
  split
  · next hread =>
      obtain ⟨rfl, rfl⟩ := Prod.mk.inj (Except.ok.inj (hread.symm.trans h))
      rfl
  · next hread =>
      rw [h] at hread
      contradiction

theorem readValue_of_text {value : String} {shorter : following.length < opened.length}
    (hmark : mark? text = some ⟨'"', opened, inside⟩)
    (h : readTextAfter opened = .ok ⟨value, following, shorter⟩) :
    readValue levels text = .ok ⟨.string value, following, by omega⟩ := by
  unfold readValue
  rw [hmark]
  simp only
  rw [h]

theorem readMembers_of_member {key : String} {value : Value}
    {afterKey : named.length < opened.length} {afterColon : rest.length < named.length}
    {afterValue : behind.length < rest.length} {shorter : following.length < behind.length}
    (hmark : mark? text = some ⟨'"', opened, inside⟩)
    (hkey : readTextAfter opened = .ok ⟨key, named, afterKey⟩)
    (hcolon : mark? named = some ⟨':', rest, afterColon⟩)
    (hvalue : readValue levels rest = .ok ⟨value, behind, afterValue⟩)
    (hend : mark? behind = some ⟨'}', following, shorter⟩) :
    readMembers levels text = .ok ⟨[(key, value)], following, by omega⟩ := by
  unfold readMembers
  rw [hmark]
  simp only
  rw [hkey]
  simp only
  rw [hcolon]
  simp only
  rw [hvalue]
  simp only
  rw [hend]
  rfl

theorem readValue_of_members {members : List (String × Value)} {first : List Char}
    {afterFirst : first.length < opened.length} {shorter : following.length < opened.length}
    (hmark : mark? text = some ⟨'\x7b', opened, inside⟩)
    (hfirst : mark? opened = some ⟨'"', first, afterFirst⟩)
    (h : readMembers levels opened = .ok ⟨members, following, shorter⟩) :
    readValue (levels + 1) text =
      .ok ⟨(Object.ofMembers members).toValue, following, by omega⟩ := by
  unfold readValue
  rw [hmark]
  simp only
  rw [hfirst]
  show (match readMembers levels opened with
    | .error failure => .error failure
    | .ok ⟨members, following, shorter⟩ =>
        .ok ⟨(Object.ofMembers members).toValue, following, by omega⟩ :
      Except Failure (Reading Value text)) = _
  rw [h]

theorem readScalar_of_number {value : Value}
    (hword : readWord? text = none) (h : readNumber text = .ok (value, following)) :
    readScalar text = .ok ⟨value, following, length_lt_of_readNumber h⟩ := by
  unfold readScalar
  split
  · next hsome =>
      rw [hword] at hsome
      contradiction
  · split
    · next hread =>
        obtain ⟨rfl, rfl⟩ := Prod.mk.inj (Except.ok.inj (hread.symm.trans h))
        rfl
    · next hread =>
        rw [h] at hread
        contradiction

theorem readValue_of_scalar {value : Value} {c : Char}
    {shorter : following.length < (c :: opened).length}
    (hmark : mark? text = some ⟨c, opened, inside⟩) (hc : c ∉ ['"', '[', '\x7b'])
    (h : readScalar (c :: opened) = .ok ⟨value, following, shorter⟩) :
    readValue levels text =
      .ok ⟨value, following, by rw [List.length_cons] at shorter; omega⟩ := by
  simp only [List.mem_cons, List.not_mem_nil, or_false, not_or] at hc
  unfold readValue
  rw [hmark]
  split
  case h_5 hsome =>
    obtain ⟨rfl, rfl⟩ : c = _ ∧ opened = _ := by simpa using hsome
    rw [h]
  all_goals simp_all

end Steps

end JsonReader

/-- The value of a JSON text. -/
def Value.ofJson (host : Host) (text : String) : Except JsonError Value :=
  let chars := text.toList
  match JsonReader.readWhole host.readingLevels chars with
  | .ok value => .ok value
  | .error failure =>
      let before := chars.take (chars.length - failure.rest.length)
      .error ⟨failure.fault, Position.start.advanceOver before⟩

/-- A text that is read to its end has the value that was read. -/
theorem Value.ofJson_of_readValue {host : Host} {text : String} {value : Value}
    {shorter : ([] : List Char).length < text.toList.length}
    (hmark : text.toList.head? ≠ some '\uFEFF')
    (h : JsonReader.readValue host.readingLevels text.toList = .ok ⟨value, [], shorter⟩) :
    Value.ofJson host text = .ok value := by
  have hwhole : JsonReader.readWhole host.readingLevels text.toList = .ok value := by
    unfold JsonReader.readWhole
    split
    · next hchars => simp [hchars] at hmark
    · rw [h]
      rfl
  unfold Value.ofJson
  simp only [hwhole]

end XmlToJson
