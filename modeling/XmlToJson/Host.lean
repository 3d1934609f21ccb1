import XmlToJson.Encoding

/-!
# Machines

What a machine grants to a program that runs on it: how often functions may call themselves, how
long a text may be, and the ways to read bytes that it knows besides the encodings that every
machine knows.

None of this is told by a document, by the settings or by the files, and it differs from one
machine to the next.  So everything that depends on it takes a machine as an argument.  The
numbers that are given here by default are those of one machine.
-/

namespace XmlToJson

/-- A machine. -/
structure Host where
  /-- The greatest depth of an element that the conversion can go into. -/
  elementLevels : Nat := 960
  /-- The number of levels of arrays and objects that reading JSON can open. -/
  readingLevels : Nat := 980
  /-- The number of levels of arrays and objects that writing JSON can go into, with lines that are
  indented and without. -/
  writingLevels (indented : Bool) : Nat := 993
  /-- The number of levels of arrays and objects that copying a value can go into. -/
  copyingLevels : Nat := 490
  /-- The number of levels of directories that looking for files can go into. -/
  directoryLevels : Nat := 980
  /-- The length of the longest text. -/
  textLength : Nat := 0x10000000000
  /-- The codecs with a name, besides the encodings. -/
  codec? : String → Option Codec := Codec.ofName?

end XmlToJson
