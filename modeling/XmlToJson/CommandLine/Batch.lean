import XmlToJson.Conversion.File

/-!
# Converting many files

The paths of a command line stand for files: a path of a directory for the documents in it, in the
order of their names, and any other path for itself, also if nothing is there.  Documents in a
directory are told by their suffix.  All of a directory is looked through before the first document
in it is converted; then each place that was found is asked about, and converted if it is that of a
document, before the next one is asked about.  The files of a path are converted before the next
path is looked at.

A file that cannot be converted is reported, and the next one follows.  Some failures are no matter
of a single file, and end everything.
-/

namespace XmlToJson.CommandLine

/-- Why a run of the program ends without reporting. -/
inductive Abort where
  | integerTooLong
  | unknownEncoding (name : String)
  | encodingNotText (kind : String)
  | encodingUnnameable
  /-- The codec of the encoding fails in a way that is no matter of single bytes. -/
  | unusableEncoding (message : String)
  /-- A path cannot be asked about, or no file can have it. -/
  | badPath (error : FileError)
  /-- A directory lies too far below the one that is looked through. -/
  | searchTooDeep (path : Path)
  /-- What is to be printed or written cannot be made a text. -/
  | unwritable (fault : WritingFault)
  /-- An option for a whole number has no value. -/
  | noNumber (fault : SettingsFault)
  /-- The configuration file has too many levels. -/
  | configurationTooDeep (error : JsonError)
  deriving DecidableEq, Repr

def Abort.message : Abort → String
  | .integerTooLong => "a whole number has too many digits"
  | .unknownEncoding name => (ReadingFault.unknownEncoding name).message
  | .encodingNotText kind => (ReadingFault.encodingNotText kind).message
  | .encodingUnnameable => ReadingFault.encodingUnnameable.message
  | .unusableEncoding message => message
  | .badPath error => error.message
  | .searchTooDeep path => "too many levels of directories: " ++ Text.quoted path.text
  | .unwritable fault => fault.message
  | .noNumber fault => fault.message
  | .configurationTooDeep error => error.message

/-- What came of a file: an object, or the text of an error. -/
structure FileReport where
  path : Path
  outcome : Except String Object

def FileReport.isValid (report : FileReport) : Bool := report.outcome.isOk

/-- What comes of each item, one after the other. -/
def collect {α β : Type} (step : α → Except Abort (List β)) (items : List α) :
    Except Abort (List β) :=
  (items.mapM step).map List.flatten

/-! ## Looking for documents -/

/-- The suffixes of documents, in small letters. -/
def documentSuffixes : List String := ["xml", "xhtml", "svg"]

/-- Whether a file with the given name is a document. -/
def isDocumentName (name : String) : Bool :=
  documentSuffixes.contains (String.ofList ((Path.suffixOf name.toList).map Char.toLower))

/-- Why looking through a directory with the given path does not come to an end: a directory in it
is too far below, or has a path that is too long. -/
def searchFault? (host : Host) (path : Path) (found : List (List String × Bool)) : Option Abort :=
  found.findSome? fun (below, isDirectory) =>
    let inside := path.append below
    if !isDirectory then none
    else if host.directoryLevels < below.length then some (.searchTooDeep inside)
    else if FileTree.maxPathBytes < inside.text.utf8ByteSize then
      some (.badPath ⟨.tooLong, inside⟩)
    else none

/-- What is found in a directory, in the order of the names. -/
def sortedFound (files : FileTree) (directory : List String) (recursive : Bool) :
    List (List String × Bool) :=
  (files.found directory recursive).mergeSort fun first second =>
    !second.1.lex first.1 fun name other => name < other

/-- The paths of what is in the directory at some place, in the order of the names. -/
def candidatesIn (host : Host) (files : FileTree) (recursive : Bool) (path : Path)
    (directory : List String) : Except Abort (List Path) :=
  let found := sortedFound files directory recursive
  -- Without `recursive` no directory is looked into.
  match if recursive then searchFault? host path found else none with
  | some reason => .error reason
  | none => .ok (found.map fun (below, _) => path.append below)

/-- Whether a path that was found in a directory is that of a document. -/
def isDocument (files : FileTree) (candidate : Path) : Except Abort Bool := do
  match ← (files.find candidate).mapError .badPath with
  | some (_, .file _) => return isDocumentName (candidate.parts.getLastD "")
  | _ => return false

/-! ## Converting -/

/-- The record that a file could not be converted. -/
def failureRecord (path : Path) : LogRecord :=
  (Logger.named "xml_json_bridge.cli.main" none (some "cli_converter")).record .debug
    "Failed to convert file" [("file", .string path.text)]

/-- The text of a failure that concerns a single file only, or the one that ends everything. -/
def errorText : FileFailure → Except Abort String
  | .unreadable (.inaccessible error) =>
      if error.fault = .unnameable then .error (.badPath error) else .ok error.message
  | .unreadable (.undecodable error) => .ok error.message
  | .unreadable (.codec (.undecodable message)) => .ok message
  | .unreadable (.codec (.unusable message)) => .error (.unusableEncoding message)
  | .unreadable (.unknownEncoding name) => .error (.unknownEncoding name)
  | .unreadable (.encodingNotText kind) => .error (.encodingNotText kind)
  | .unreadable .encodingUnnameable => .error .encodingUnnameable
  | .failed (.refused error) => .ok error.message
  | .failed .integerTooLong => .error .integerTooLong

def convertOne (converter : Converter) (encoding : Value) (files : FileTree) (path : Path) :
    Except Abort (Logged FileReport) :=
  let converted := converter.convertFile files path encoding
  match converted.outcome with
  | .ok conversion => .ok ⟨⟨path, .ok conversion.data⟩, converted.log⟩
  | .error failure =>
      (errorText failure).map fun text =>
        ⟨⟨path, .error text⟩, converted.log ++ [failureRecord path]⟩

/-- Converts what was found in a directory, if it is a document. -/
def convertCandidate (converter : Converter) (encoding : Value) (files : FileTree)
    (candidate : Path) : Except Abort (List (Logged FileReport)) := do
  if ← isDocument files candidate then
    return [← convertOne converter encoding files candidate]
  else return []

/-- Converts the files that a path stands for. -/
def convertPath (converter : Converter) (encoding : Value) (files : FileTree) (recursive : Bool)
    (path : Path) : Except Abort (List (Logged FileReport)) := do
  match ← (files.find path).mapError .badPath with
  | some (directory, .directory) =>
      let candidates ← candidatesIn converter.host files recursive path directory
      collect (convertCandidate converter encoding files) candidates
  | _ => return [← convertOne converter encoding files path]

/-- Records one after the other. -/
def gather {α : Type} (records : List (Logged α)) : Logged (List α) :=
  ⟨records.map (·.outcome), records.flatMap (·.log)⟩

def convertAll (converter : Converter) (encoding : Value) (files : FileTree) (recursive : Bool)
    (paths : List Path) : Except Abort (Logged (List FileReport)) :=
  (collect (convertPath converter encoding files recursive) paths).map gather

end XmlToJson.CommandLine
