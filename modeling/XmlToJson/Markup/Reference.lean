import XmlToJson.Markup.Cursor
import XmlToJson.Numeral.Integer
import XmlToJson.Text.Alphanumeric

/-!
# References

A reference `&name;` stands for a character: by one of five names, or by the number of the
character after a number sign.  A reference to anything else stays as it is written.

Character data is text in which references are replaced.  `CharacterData.read` reads it up to a
stop character, and the number of characters that it reports are exactly those that it read.
-/

namespace XmlToJson

namespace Reference

/-- The characters that a document may contain. -/
def allowedRanges : List (Nat × Nat) :=
  [(0x9, 0xA), (0xD, 0xD), (0x20, 0xD7FF), (0xE000, 0xFFFD), (0x10000, 0x10FFFF)]

/-- Whether a character may stand in the name of a reference. -/
def isNameChar (c : Char) : Bool :=
  Text.isAlphanumeric c || c == '#'

/-- The number of a character, as a reference gives it after the number sign. -/
def codePoint? : List Char → Option Int
  | 'x' :: digits => Numeral.hexadecimal? digits
  | 'X' :: digits => Numeral.hexadecimal? digits
  | digits => Numeral.decimal? digits

/-- The character with the given number, if a document may contain it. -/
def character? (code : Int) : Option Char :=
  if 0 ≤ code ∧ Text.inRanges allowedRanges code.toNat then some (Char.ofNat code.toNat) else none

/-- The five names that stand for a character. -/
def namedCharacters : List (String × Char) :=
  [("amp", '&'), ("apos", '\''), ("gt", '>'), ("lt", '<'), ("quot", '"')]

/-- The character that a name stands for. -/
def named? (name : List Char) : Option Char :=
  namedCharacters.lookup (String.ofList name)

/-- The character that the reference with the given name stands for. -/
def resolve? : List Char → Option Char
  | '#' :: number => (codePoint? number).bind character?
  | name => named? name

/-- The text of a reference: its character, or the reference itself. -/
def expand (name : List Char) : List Char :=
  match resolve? name with
  | some c => [c]
  | none => '&' :: name ++ [';']

end Reference

/-- How a run of character data ends. -/
inductive CharacterData.Ending where
  /-- The stop character follows. -/
  | stopped
  /-- The text ends. -/
  | exhausted
  /-- The reference with the given name is followed by something other than a semicolon. -/
  | brokenReference (name : List Char)
  deriving DecidableEq, Repr

/-- A run of character data. -/
structure CharacterData where
  /-- The characters with all references replaced. -/
  decoded : List Char
  /-- The number of characters before the one that ends the run. -/
  length : Nat
  ending : CharacterData.Ending
  deriving DecidableEq, Repr

namespace CharacterData

/-- The run with `count` characters before it that stand for `decoded`. -/
def after (decoded : List Char) (count : Nat) (data : CharacterData) : CharacterData :=
  { data with decoded := decoded ++ data.decoded, length := count + data.length }

/-- Reads character data up to the character `stop`. -/
def read (stop : Char) : List Char → CharacterData
  | [] => ⟨[], 0, .exhausted⟩
  | c :: rest =>
      if c = stop then ⟨[], 0, .stopped⟩
      else if c = '&' then
        let name := rest.takeWhile Reference.isNameChar
        match rest.drop name.length with
        | ';' :: following =>
            (read stop (rest.drop (name.length + 1))).after (Reference.expand name)
              (name.length + 2)
        | _ => ⟨[], name.length + 1, .brokenReference name⟩
      else (read stop rest).after [c] 1
  termination_by text => text.length
  decreasing_by all_goals simp; try omega

end CharacterData

end XmlToJson
