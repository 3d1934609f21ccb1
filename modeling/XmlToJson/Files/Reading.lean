import XmlToJson.Encoding
import XmlToJson.Files.Tree
import XmlToJson.Host
import XmlToJson.Json.Value
import XmlToJson.Text.Search

/-!
# Reading texts from files

A file is read in the encoding that a setting names; without a name it is read as UTF-8.  What is
wrong is found in this order: a setting that is no name or holds U+0000, a file that cannot be
opened, a name that neither an encoding nor a codec of the machine has, and bytes that cannot be
read under that name.
-/

namespace XmlToJson

/-- Why a file cannot be read as a text. -/
inductive ReadingFault where
  | inaccessible (error : FileError)
  | undecodable (error : DecodeError)
  /-- A codec of the machine gives no text. -/
  | codec (fault : CodecFault)
  | unknownEncoding (name : String)
  /-- The setting is not the name of an encoding, but a value of the given kind. -/
  | encodingNotText (kind : String)
  /-- The name of the encoding holds U+0000. -/
  | encodingUnnameable
  deriving DecidableEq, Repr

namespace ReadingFault

def message : ReadingFault → String
  | .inaccessible error => error.message
  | .undecodable error => error.message
  | .codec (.undecodable message) | .codec (.unusable message) => message
  | .unknownEncoding name => "unknown encoding: " ++ name
  | .encodingNotText kind => s!"the name of an encoding has to be a text, not {kind}"
  | .encodingUnnameable => "no name of an encoding holds U+0000"

end ReadingFault

namespace FileTree

/-- The name of an encoding that a setting gives. -/
def encodingName : Value → Except ReadingFault String
  | .null => .ok "utf-8"
  | .string name =>
      if name.toList.contains '\x00' then .error .encodingUnnameable else .ok name
  | value => .error (.encodingNotText value.kindName)

/-- The text that bytes stand for under the name of an encoding or a codec. -/
def decode (host : Host) (name : String) (bytes : List UInt8) : Except ReadingFault String :=
  match Encoding.ofName? name with
  | some encoding => (encoding.decode bytes).mapError .undecodable
  | none =>
      match host.codec? name with
      | some codec => (codec bytes).mapError .codec
      | none => .error (.unknownEncoding name)

/-- The text of a file, with a line feed at the end of every line. -/
def readText (tree : FileTree) (host : Host) (path : Path) (encoding : Value) :
    Except ReadingFault String := do
  let name ← encodingName encoding
  let bytes ← (tree.read path).mapError .inaccessible
  -- The name is looked up only now, so a file that is not there is found first.
  let text ← decode host name bytes
  return String.ofList (Text.withLineFeeds text.toList)

end FileTree

end XmlToJson
