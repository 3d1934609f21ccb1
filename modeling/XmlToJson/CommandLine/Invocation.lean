import XmlToJson.CommandLine.Help
import XmlToJson.CommandLine.Options
import XmlToJson.Files.Path
import XmlToJson.Settings

/-!
# What the command line asks for

The program has two commands, one that converts documents and one that only checks that they can be
converted.  The options before the name of the command are those of the program, everything after
it belongs to the command.
-/

namespace XmlToJson.CommandLine

/-- What is said to the program before the command. -/
structure ProgramArguments where
  verbose : Bool := false
  quiet : Bool := false
  deriving DecidableEq, Repr

/-- What is said to the command that converts. -/
structure ConvertArguments where
  recursive : Bool := false
  keepStrings : Bool := false
  /-- The greatest depth, if one is asked for; the inner `none` stands for an option without a
  value. -/
  maxDepth : Option (Option Int) := none
  /-- The indentation, in the same way. -/
  indent : Option (Option Int) := none
  output : Option Path := none
  preset : Option String := none
  config : Option Path := none
  deriving DecidableEq, Repr

/-- What is said to the command that checks. -/
structure CheckArguments where
  recursive : Bool := false
  json : Bool := false
  config : Option Path := none
  deriving DecidableEq, Repr

/-- A command with the paths that it is applied to. -/
inductive Command where
  | convert (paths : List Path) (arguments : ConvertArguments)
  | check (paths : List Path) (arguments : CheckArguments)
  deriving DecidableEq, Repr

/-- What a command line asks for. -/
structure Invocation where
  program : ProgramArguments
  command : Option Command
  deriving DecidableEq, Repr

/-- The paths of the documents that a command is applied to, and whether directories are searched
to the bottom. -/
def Command.documents : Command → List Path × Bool
  | .convert paths arguments => (paths, arguments.recursive)
  | .check paths arguments => (paths, arguments.recursive)

/-- The other paths that a command uses. -/
def Command.otherPaths : Command → List Path
  | .convert _ arguments => arguments.config.toList ++ arguments.output.toList
  | .check _ arguments => arguments.config.toList

/-- What a command line is answered with at once. -/
inductive Reply where
  | help (lines : List String)
  | version
  /-- The arguments are refused by the program or command with the given name. -/
  | refused (name : String) (fault : UsageFault)
  deriving DecidableEq, Repr

/-! ## What is accepted -/

/-- The option that asks for help. -/
def helpOption {α : Type} : OptionRule α := ⟨["-h", "--help"], .help⟩

/-- What the program accepts. -/
def programGrammar : Grammar ProgramArguments where
  options :=
    [helpOption,
      ⟨["--version"], .version⟩,
      ⟨["--verbose", "-v"], .switch fun arguments => { arguments with verbose := true }⟩,
      ⟨["--quiet", "-q"], .switch fun arguments => { arguments with quiet := true }⟩]
  operands := .rest

def convertGrammar : Grammar ConvertArguments where
  options :=
    [helpOption,
      ⟨["--recursive", "-r"], .switch fun arguments => { arguments with recursive := true }⟩,
      ⟨["--keep-strings"], .switch fun arguments => { arguments with keepStrings := true }⟩,
      ⟨["--max-depth"], .integer fun depth arguments => { arguments with maxDepth := some depth }⟩,
      ⟨["--indent"], .integer fun indent arguments => { arguments with indent := some indent }⟩,
      ⟨["--output", "-o"],
        .text fun path arguments => { arguments with output := path.map .ofText }⟩,
      ⟨["--preset"], .choice (Settings.presets.map (·.1))
        fun preset arguments => { arguments with preset }⟩,
      ⟨["--config", "-c"],
        .text fun path arguments => { arguments with config := path.map .ofText }⟩]
  operands := .run

def checkGrammar : Grammar CheckArguments where
  options :=
    [helpOption,
      ⟨["--recursive", "-r"], .switch fun arguments => { arguments with recursive := true }⟩,
      ⟨["--format", "-f"], .choice ["json", "text"]
        fun format arguments => { arguments with json := format == some "json" }⟩,
      ⟨["--config", "-c"],
        .text fun path arguments => { arguments with config := path.map .ofText }⟩]
  operands := .run

/-! ## Reading -/

/-- The reply of the program or command with the given name when reading stops. -/
def replyOf (name : String) : Stop → Reply
  | .help => .help (helpOn name)
  | .version => .version
  | .refused fault => .refused name fault

/-- Reads the arguments of a command, which have to name a path; with the command come the
arguments that were not recognized. -/
def readCommand {α : Type} (name : String) (grammar : Grammar α) (initial : α)
    (command : List Path → α → Command) (arguments : List String) :
    Except Reply (Command × List String) := do
  let name := commandName name
  let parsed ← (grammar.parse initial arguments).mapError (replyOf name)
  match parsed.operands with
  | none => throw (.refused name (.operandsMissing "paths"))
  | some paths => return (command (paths.map Path.ofText) parsed.arguments, parsed.unrecognized)

/-- Reads the name of a command and what follows it. -/
def readNamedCommand (name : String) (arguments : List String) :
    Except Reply (Command × List String) :=
  match name with
  | "convert" => readCommand name convertGrammar {} .convert arguments
  | "check" => readCommand name checkGrammar {} .check arguments
  | _ => .error (.refused programName (.notAChoice ["command"] name ["convert", "check"]))

/-- Reads a command line. -/
def Invocation.read (arguments : List String) : Except Reply Invocation := do
  let parsed ← (programGrammar.parse {} arguments).mapError (replyOf programName)
  let (command, unrecognized) ←
    match parsed.operands with
    | none | some [] => pure (none, [])
    | some (name :: rest) => (readNamedCommand name rest).map fun (command, unrecognized) =>
        (some command, unrecognized)
  match parsed.unrecognized ++ unrecognized with
  | [] => return { program := parsed.arguments, command }
  | arguments => throw (.refused programName (.unrecognized arguments))

end XmlToJson.CommandLine
