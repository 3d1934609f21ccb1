/-!
# Encodings of texts

The encodings in which a document may be stored, and the reading of bytes in each of them.  Reading
is strict: it ends at the first bytes that stand for no character, and tells which bytes these are
and what is wrong with them.

An encoding is a rule for the character at the beginning of some bytes; `decodeFrom` applies it
until the bytes end.  A machine may know more ways to read bytes.  Of such a codec nothing is
known but that it gives a text or fails, at bytes that stand for no character or in another way.
-/

namespace XmlToJson

/-- An encoding. -/
inductive Encoding where
  | utf8
  /-- UTF-8 after an optional mark of three bytes. -/
  | utf8Marked
  | latin1
  | ascii
  /-- UTF-16 with the low byte of a unit first. -/
  | utf16Little
  /-- UTF-16 with the high byte of a unit first. -/
  | utf16Big
  deriving DecidableEq, Repr

/-- What is wrong with bytes that stand for no character. -/
inductive EncodingFault where
  | startByte
  | continuationByte
  | endOfData
  | beyondAscii
  | truncatedUnit
  | lowSurrogateFirst
  | unpairedSurrogate
  deriving DecidableEq, Repr

def EncodingFault.message : EncodingFault → String
  | .startByte => "invalid start byte"
  | .continuationByte => "invalid continuation byte"
  | .endOfData => "unexpected end of data"
  | .beyondAscii => "ordinal not in range(128)"
  | .truncatedUnit => "truncated data"
  | .lowSurrogateFirst => "illegal encoding"
  | .unpairedSurrogate => "illegal UTF-16 surrogate"

/-- Bytes that stand for no character in an encoding. -/
structure DecodeError where
  encoding : Encoding
  fault : EncodingFault
  /-- The number of bytes before the ones at fault. -/
  start : Nat
  /-- The first of the bytes at fault. -/
  firstByte : UInt8
  /-- The number of bytes at fault. -/
  length : Nat
  deriving DecidableEq, Repr

namespace Encoding

/-! ## Names -/

/-- The name of an encoding in messages.  The mark in front makes no difference there. -/
def name : Encoding → String
  | .utf8 | .utf8Marked => "utf-8"
  | .latin1 => "latin-1"
  | .ascii => "ascii"
  | .utf16Little => "utf-16-le"
  | .utf16Big => "utf-16-be"

/-- The names of the encodings, as `simplifyName` leaves them: the proper one and the others. -/
def names : List (Encoding × String × List String) :=
  [(.utf8, "utf_8", ["u8", "utf", "utf8", "utf8_ucs2", "utf8_ucs4", "cp65001"]),
    (.utf8Marked, "utf_8_sig", []),
    (.latin1, "latin_1", ["8859", "cp819", "csisolatin1", "ibm819", "iso8859", "iso8859_1",
      "iso_8859_1", "iso_8859_1_1987", "iso_ir_100", "l1", "latin", "latin1"]),
    (.ascii, "ascii", ["646", "ansi_x3.4_1968", "ansi_x3_4_1968", "ansi_x3.4_1986", "cp367",
      "csascii", "ibm367", "iso646_us", "iso_646.irv_1991", "iso_ir_6", "us", "us_ascii"]),
    (.utf16Little, "utf_16_le", ["unicodelittleunmarked", "utf_16le"]),
    (.utf16Big, "utf_16_be", ["unicodebigunmarked", "utf_16be"])]

/-- The encoding of the system, under a name that is written in one way only. -/
def system : String × Encoding := ("locale", .utf8)

/-- Whether `c` counts in the name of an encoding; other characters only separate. -/
def isNameChar (c : Char) : Bool := c.isAlphanum || c == '.'

/-- The name of an encoding in small letters, with one underscore for the characters between two
words.  `started` says that a word stands before, and `pending` that such characters stand between
it and the next one. -/
def simplifyName (started pending : Bool) : List Char → List Char
  | [] => []
  | c :: rest =>
      if isNameChar c then
        let word := c.toLower :: simplifyName true false rest
        if pending then '_' :: word else word
      else simplifyName started started rest

/-- Whether a name is one of those that are given.  A point may stand for an underscore in every
name but the proper one. -/
def hasName (name proper : String) (others : List String) : Bool :=
  let chars := simplifyName false false name.toList
  let simple := String.ofList chars
  let plain := String.ofList (chars.map fun c => if c = '.' then '_' else c)
  proper == simple || others.contains simple || others.contains plain

/-- The encoding with the given name. -/
def ofName? (name : String) : Option Encoding :=
  if name = system.1 then some system.2
  else (names.find? fun (_, proper, others) => hasName name proper others).map (·.1)

/-! ## The character at the beginning -/

/-- What is wrong with the first bytes, and how many of them are at fault. -/
structure BadStart where
  fault : EncodingFault
  length : Nat
  deriving DecidableEq, Repr

/-- The character at the beginning, and how many bytes after the first one belong to it. -/
abbrev FirstChar := Except BadStart (Char × Nat)

/-- The bytes that may follow the first byte of a character in UTF-8. -/
def continuationByte : Nat × Nat := (0x80, 0xBF)

/-- What the first byte of a character in UTF-8 contributes to it, and the ranges of the bytes that
have to follow.  Ranges that are narrower than `continuationByte` keep out what could be written in
fewer bytes, the surrogates and what lies beyond the last code point. -/
def utf8Start? (byte : Nat) : Option (Nat × List (Nat × Nat)) :=
  if byte < 0x80 then some (byte, [])
  else if byte < 0xC2 then none
  else if byte < 0xE0 then some (byte % 0x20, [continuationByte])
  else if byte = 0xE0 then some (0, [(0xA0, 0xBF), continuationByte])
  else if byte = 0xED then some (0xD, [(0x80, 0x9F), continuationByte])
  else if byte < 0xF0 then some (byte % 0x10, [continuationByte, continuationByte])
  else if byte = 0xF0 then some (0, [(0x90, 0xBF), continuationByte, continuationByte])
  else if byte < 0xF4 then
    some (byte % 0x08, [continuationByte, continuationByte, continuationByte])
  else if byte = 0xF4 then some (4, [(0x80, 0x8F), continuationByte, continuationByte])
  else none

/-- The rest of a character in UTF-8.  `value` is what `count` bytes have contributed, of which
the first one does not count among the bytes that follow. -/
def utf8Rest (value count : Nat) : List (Nat × Nat) → List UInt8 → FirstChar
  | [], _ => .ok (Char.ofNat value, count - 1)
  | _ :: _, [] => .error ⟨.endOfData, count⟩
  | (low, high) :: ranges, byte :: rest =>
      if low ≤ byte.toNat ∧ byte.toNat ≤ high then
        utf8Rest (value * 0x40 + byte.toNat % 0x40) (count + 1) ranges rest
      else .error ⟨.continuationByte, count⟩

/-- The first character in UTF-8. -/
def utf8First (byte : UInt8) (rest : List UInt8) : FirstChar :=
  match utf8Start? byte.toNat with
  | none => .error ⟨.startByte, 1⟩
  | some (value, ranges) => utf8Rest value 1 ranges rest

/-- The first character in UTF-16; `unit` makes a unit from two bytes. -/
def utf16First (unit : UInt8 → UInt8 → Nat) (byte : UInt8) (rest : List UInt8) : FirstChar :=
  match rest with
  | [] => .error ⟨.truncatedUnit, 1⟩
  | second :: rest =>
      let high := unit byte second
      if high < 0xD800 ∨ 0xDFFF < high then .ok (Char.ofNat high, 1)
      else if 0xDC00 ≤ high then .error ⟨.lowSurrogateFirst, 2⟩
      else
        -- The unit is the first half of a pair.
        match rest with
        | third :: fourth :: _ =>
            let low := unit third fourth
            if 0xDC00 ≤ low ∧ low ≤ 0xDFFF then
              .ok (Char.ofNat (0x10000 + (high - 0xD800) * 0x400 + (low - 0xDC00)), 3)
            else .error ⟨.unpairedSurrogate, 2⟩
        | tail => .error ⟨.endOfData, 2 + tail.length⟩

def first : Encoding → UInt8 → List UInt8 → FirstChar
  | .utf8 | .utf8Marked => utf8First
  | .latin1 => fun byte _ => .ok (Char.ofNat byte.toNat, 0)
  | .ascii => fun byte _ =>
      if byte.toNat < 0x80 then .ok (Char.ofNat byte.toNat, 0) else .error ⟨.beyondAscii, 1⟩
  | .utf16Little => utf16First fun low high => high.toNat * 0x100 + low.toNat
  | .utf16Big => utf16First fun high low => high.toNat * 0x100 + low.toNat

/-! ## Whole texts -/

/-- The characters of the bytes after the first `start` ones.  `before` are the characters of
those, the last one first. -/
def decodeFrom (encoding : Encoding) (start : Nat) (before : List Char) (bytes : List UInt8) :
    Except DecodeError (List Char) :=
  match bytes with
  | [] => .ok before.reverse
  | byte :: rest =>
      match encoding.first byte rest with
      | .error bad => .error ⟨encoding, bad.fault, start, byte, bad.length⟩
      | .ok (c, more) => decodeFrom encoding (start + 1 + more) (c :: before) (rest.drop more)
termination_by bytes.length
decreasing_by
  rw [List.length_drop, List.length_cons]
  omega

/-- The mark that may stand in front of UTF-8. -/
def mark : List UInt8 := [0xEF, 0xBB, 0xBF]

/-- The bytes after the mark, if the encoding has one and it is there; fewer than three bytes that
begin a mark count as one. -/
def withoutMark (encoding : Encoding) (bytes : List UInt8) : List UInt8 :=
  if encoding = .utf8Marked ∧ bytes.take 3 = mark.take bytes.length then bytes.drop 3 else bytes

/-- The text that bytes stand for. -/
def decode (encoding : Encoding) (bytes : List UInt8) : Except DecodeError String :=
  (encoding.decodeFrom 0 [] (encoding.withoutMark bytes)).map String.ofList

def utf8Bytes (text : String) : List UInt8 := text.toUTF8.toList

end Encoding

namespace DecodeError

/-- A byte as two hexadecimal digits. -/
def byteText (byte : UInt8) : String :=
  let digits := Nat.toDigits 16 byte.toNat
  String.ofList (List.replicate (2 - digits.length) '0' ++ digits)

def message (error : DecodeError) : String :=
  let bytes :=
    if error.length = 1 then s!"byte 0x{byteText error.firstByte} in position {error.start}"
    else s!"bytes in position {error.start}-{error.start + error.length - 1}"
  s!"'{error.encoding.name}' codec can't decode {bytes}: {error.fault.message}"

end DecodeError

/-! ## Codecs -/

/-- Why a codec gives no text. -/
inductive CodecFault where
  /-- Some bytes stand for no character. -/
  | undecodable (message : String)
  /-- The codec fails in another way. -/
  | unusable (message : String)
  deriving DecidableEq, Repr

/-- A way to read bytes. -/
abbrev Codec := List UInt8 → Except CodecFault String

namespace Codec

/-- UTF-16 from a place on, where the order of the bytes in a unit is known. -/
def utf16From (encoding : Encoding) (start : Nat) (bytes : List UInt8) :
    Except CodecFault String :=
  match encoding.decodeFrom start [] bytes with
  | .ok chars => .ok (String.ofList chars)
  | .error error => .error (.undecodable error.message)

/-- UTF-16 after a mark that tells the order of the bytes in a unit.  Bytes without a mark have to
be those of a text with the low byte first, and are refused even then, unless there are none. -/
def utf16 : Codec
  | 0xFF :: 0xFE :: rest => utf16From .utf16Little 2 rest
  | 0xFE :: 0xFF :: rest => utf16From .utf16Big 2 rest
  | [] => .ok ""
  | bytes => do
      let _ ← utf16From .utf16Little 0 bytes
      throw (.unusable "UTF-16 stream does not start with BOM")

/-- The codec with the given name. -/
def ofName? (name : String) : Option Codec :=
  if Encoding.hasName name "utf_16" ["u16", "utf16"] then some utf16 else none

end Codec

end XmlToJson
