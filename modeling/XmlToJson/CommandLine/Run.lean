import XmlToJson.CommandLine.Batch
import XmlToJson.CommandLine.Invocation
import XmlToJson.CommandLine.Profile

/-!
# Running the program

A run of the program depends on the arguments, on the files that it finds and on the machine, and
leaves behind what it printed, a status, and the files as they are afterwards.

The settings of a run come from four places: those by default, the configuration file, the preset
on the command line, which replaces the settings as a whole, and the single settings on the command
line.
-/

namespace XmlToJson.CommandLine

/-- What a run leaves behind. -/
structure Outcome where
  status : Nat
  output : List String := []
  messages : List String := []
  files : FileTree

/-- Why a run has no outcome. -/
inductive RunFailure where
  /-- The arguments are refused by the program or command with the given name. -/
  | refused (name : String) (fault : UsageFault)
  | aborted (reason : Abort)
  deriving DecidableEq, Repr

namespace RunFailure

/-- The lines that tell why a run has no outcome; arguments that are refused come with the ones
that would be accepted. -/
def lines : RunFailure → List String
  | .refused name fault =>
      (helpOn name).takeWhile (· != "") ++ [s!"{name}: error: {fault.message}"]
  | .aborted reason => ["Error: " ++ reason.message]

def status : RunFailure → Nat
  | .refused .. => 2
  | .aborted _ => 1

end RunFailure

/-- The text that lines make. -/
def textOf (lines : List String) : String :=
  String.join (lines.map fun line => line ++ "\n")

/-! ## Settings -/

/-- What the configuration file gives, if one is named and there, with a warning if it is
wrong. -/
def profileOf (host : Host) (files : FileTree) (config : Option Path) :
    Except Abort (Profile × List String) :=
  match config with
  | none => .ok ({}, [])
  | some path => do
      if (← (files.find path).mapError .badPath).isNone then return ({}, [])
      match Profile.read host files path with
      | .ok profile => return (profile, [])
      | .error (.notJson ⟨.tooDeep, place⟩) => throw (.configurationTooDeep ⟨.tooDeep, place⟩)
      | .error fault => return ({}, ["Warning: Could not load config file: " ++ fault.message])

/-- The setting that an option for a whole number gives; without a value it is an empty array, which
is no number. -/
def numberSetting : Option Int → Value
  | some number => .integer number
  | none => .list []

/-- The single settings that the command that converts is given. -/
def ConvertArguments.changes (arguments : ConvertArguments) : List (String × Value) :=
  (if arguments.keepStrings then [("keep_strings", .bool true)] else []) ++
    (arguments.maxDepth.map fun depth => ("max_nesting_depth", numberSetting depth)).toList ++
    (arguments.indent.map fun indent => ("json_indent", numberSetting indent)).toList

/-- Settings with what the command that converts is given on top of them. -/
def ConvertArguments.settings (arguments : ConvertArguments) (settings : Settings) :
    Except SettingsFault Settings :=
  let settings := (arguments.preset.bind Settings.preset?).getD settings
  match arguments.changes with
  | [] => .ok settings
  | changes => settings.override changes

/-- The least grave records that a run shows. -/
def ProgramArguments.level (arguments : ProgramArguments) (settings : Settings) : LogLevel :=
  if arguments.verbose then .debug
  else if arguments.quiet then .error
  else settings.loggingLevel

/-- The lines of the records that are shown. -/
def logLines (level : LogLevel) (log : List LogRecord) : List String :=
  (log.filter (LogRecord.reaches level)).map LogRecord.line

/-! ## Converting -/

def errorLine (report : FileReport) : Option String :=
  match report.outcome with
  | .ok _ => none
  | .error text => some s!"Error: {report.path.text}: {text}"

/-- The object of a file that was converted, under its path. -/
def memberOf (report : FileReport) : Option (String × Value) :=
  match report.outcome with
  | .ok data => some (report.path.text, data.toValue)
  | .error _ => none

/-- What is written about the files: the object of a single file, if it was converted, and
otherwise an object with the objects of all files. -/
def resultOf (reports : List FileReport) : Option Value :=
  match reports with
  | [report] => (memberOf report).map (·.2)
  | reports => some (Object.ofMembers (reports.filterMap memberOf)).toValue

/-- Prints or writes the result of converting. -/
def deliver (files : FileTree) (output : Option Path) (status : Nat) (messages : List String)
    (text : String) : Except Abort Outcome :=
  match output with
  | none => .ok { status, output := [text], messages, files }
  | some path =>
      match files.write path (Encoding.utf8Bytes (text ++ "\n")) with
      | .ok files =>
          .ok { status, messages := messages ++ ["Results written to " ++ path.text], files }
      | .error ⟨.unnameable, path⟩ => .error (.badPath ⟨.unnameable, path⟩)
      | .error error =>
          .ok {
            status := 1
            messages := messages ++ ["Error writing output: " ++ error.message]
            files }

/-- Runs the command that converts. -/
def runConvert (host : Host) (files : FileTree) (level : LogLevel) (profile : Profile)
    (paths : List Path) (arguments : ConvertArguments) : Except Abort Outcome := do
  let converter : Converter := { settings := profile.settings, host }
  let ⟨reports, log⟩ ← convertAll converter profile.encoding files arguments.recursive paths
  if reports.isEmpty then
    return { status := 1, messages := ["No XML files found"], files }
  let status := if reports.all FileReport.isValid then 0 else 1
  let messages := logLines level log ++ reports.filterMap errorLine
  -- A single file that was not converted leaves nothing to write.
  match resultOf reports with
  | none => return { status, messages, files }
  | some result =>
      let text ← (result.printWith host (profile.settings.jsonLayout host)).mapError .unwritable
      deliver files arguments.output status messages text

/-! ## Checking -/

/-- What is written about a file that was checked. -/
def checkedValue (report : FileReport) : Value :=
  let error :=
    match report.outcome with
    | .ok _ => []
    | .error text => [("error", .string text)]
  .object ([("file", .string report.path.text), ("valid", .bool report.isValid)] ++ error)

/-- The lines on a file that was checked. -/
def checkedLines (report : FileReport) : List String :=
  match report.outcome with
  | .ok _ => ["✓ " ++ report.path.text]
  | .error text => ["✗ " ++ report.path.text, "   Error: " ++ text]

/-- How the files that were checked are written as JSON. -/
def checkedLayout : JsonLayout := { JsonLayout.spaces 2 with ascii := true }

/-- The lines on the files that were checked. -/
def checkReport (host : Host) (reports : List FileReport) (json : Bool) :
    Except WritingFault (List String) := do
  if json then
    return [← (Value.list (reports.map checkedValue)).print host checkedLayout]
  else
    let valid := reports.countP FileReport.isValid
    let heading := [s!"Checked {reports.length} files, {valid} valid",
      String.ofList (List.replicate 50 '-')]
    return heading ++ reports.flatMap checkedLines

/-- Runs the command that checks. -/
def runCheck (host : Host) (files : FileTree) (level : LogLevel) (profile : Profile)
    (paths : List Path) (arguments : CheckArguments) : Except Abort Outcome := do
  let converter : Converter := { settings := profile.settings, host }
  let ⟨reports, log⟩ ← convertAll converter profile.encoding files arguments.recursive paths
  let output ← (checkReport host reports arguments.json).mapError .unwritable
  return {
    status := if !reports.isEmpty && reports.all FileReport.isValid then 0 else 1
    output
    messages := logLines level log
    files }

/-! ## The whole program -/

/-- An outcome after some more messages. -/
def Outcome.after (messages : List String) (outcome : Outcome) : Outcome :=
  { outcome with messages := messages ++ outcome.messages }

def runCommand (host : Host) (files : FileTree) (program : ProgramArguments) :
    Command → Except Abort Outcome
  | .convert paths arguments => do
      let (profile, warnings) ← profileOf host files arguments.config
      match arguments.settings profile.settings with
      | .error (.incomparable operator kind) => throw (.noNumber (.incomparable operator kind))
      | .error fault =>
          return { status := 1, messages := warnings ++ ["Error: " ++ fault.message], files }
      | .ok settings =>
          (runConvert host files (program.level settings) { profile with settings } paths
            arguments).map (Outcome.after warnings)
  | .check paths arguments => do
      let (profile, warnings) ← profileOf host files arguments.config
      (runCheck host files (program.level profile.settings) profile paths arguments).map
        (Outcome.after warnings)

/-- Runs the program. -/
def run (host : Host) (files : FileTree) (arguments : List String) : Except RunFailure Outcome :=
  match Invocation.read arguments with
  | .error (.help lines) => .ok { status := 0, output := lines, files }
  | .error .version => .ok { status := 0, output := [version], files }
  | .error (.refused name fault) => .error (.refused name fault)
  | .ok ⟨_, none⟩ => .ok { status := 1, output := programHelp, files }
  | .ok ⟨program, some command⟩ => (runCommand host files program command).mapError .aborted

end XmlToJson.CommandLine
