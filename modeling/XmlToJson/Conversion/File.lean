import XmlToJson.Conversion
import XmlToJson.Files.Reading

/-!
# Converting a file

A file is read and its text converted.  The record that the file is read comes first, whether it
can be read or not.
-/

namespace XmlToJson

/-- Why the conversion of a file ends without a result. -/
inductive FileFailure where
  | unreadable (fault : ReadingFault)
  | failed (failure : Failure)
  deriving DecidableEq, Repr

namespace Converter

/-- The record that a file is read. -/
def readingRecord (converter : Converter) (path : Path) (encoding : Value) : LogRecord :=
  converter.logger.record .debug "Reading XML file"
    [("file_path", .string path.text), ("encoding", encoding)]

def convertFile (converter : Converter) (files : FileTree) (path : Path) (encoding : Value) :
    Logged (Except FileFailure Conversion) :=
  let record := converter.readingRecord path encoding
  match files.readText converter.host path encoding with
  | .error fault => ⟨.error (.unreadable fault), [record]⟩
  | .ok text =>
      let converted := converter.convert text
      ⟨converted.outcome.mapError .failed, record :: converted.log⟩

end Converter

end XmlToJson
