import XmlToJson.Numeral.Integer
import XmlToJson.Text.Printable

/-!
# Options and operands

How the arguments of a command line are understood.  An argument that begins with a hyphen is an
option, unless it is a single hyphen, a negative number, or holds a space and begins no name of an
option.  After the argument `--` there are no options any more.

A long option may be shortened as long as one name only begins that way, and its argument may
follow an equals sign.  Short options may stand together, and the argument of the last of them may
follow at once.  An argument that is attached in one of these ways and is only `--` gives the option
no value.  All other arguments are operands: the first run of them that holds one belongs to the
command, and what is left over at the end was not recognized.

The arguments are first told apart, and then read from the left, so that an ambiguous option is
reported before anything else.
-/

namespace XmlToJson.CommandLine

/-- What is wrong with the arguments of a command line. -/
inductive UsageFault where
  | ambiguous (argument : String) (names : List String)
  | argumentExpected (names : List String)
  /-- An option that takes no argument has one. -/
  | argumentIgnored (names : List String) (argument : String)
  | notAnInteger (names : List String) (argument : String)
  | notAChoice (names : List String) (argument : String) (choices : List String)
  | operandsMissing (name : String)
  | unrecognized (arguments : List String)
  deriving DecidableEq, Repr

namespace UsageFault

/-- A fault of the argument that has the given names. -/
def ofArgument (names : List String) (problem : String) : String :=
  "argument " ++ "/".intercalate names ++ ": " ++ problem

def message : UsageFault → String
  | .ambiguous argument names =>
      s!"ambiguous option: {argument} could match " ++ ", ".intercalate names
  | .argumentExpected names => ofArgument names "expected one argument"
  | .argumentIgnored names argument =>
      ofArgument names ("ignored explicit argument " ++ Text.quoted argument)
  | .notAnInteger names argument =>
      ofArgument names ("invalid int value: " ++ Text.quoted argument)
  | .notAChoice names argument choices =>
      ofArgument names ("invalid choice: " ++ Text.quoted argument ++ " (choose from " ++
        ", ".intercalate (choices.map Text.quoted) ++ ")")
  | .operandsMissing name => "the following arguments are required: " ++ name
  | .unrecognized arguments => "unrecognized arguments: " ++ " ".intercalate arguments

end UsageFault

/-- Why the reading of a command line ends early. -/
inductive Stop where
  | help
  | version
  | refused (fault : UsageFault)
  deriving DecidableEq, Repr

/-- What an option does to the arguments of a command, and which argument of its own it takes.  The
argument is `none` where the option is given without a value. -/
inductive OptionEffect (α : Type) where
  | help
  | version
  | switch (change : α → α)
  | text (change : Option String → α → α)
  | integer (change : Option Int → α → α)
  | choice (choices : List String) (change : Option String → α → α)

/-- An option: its names, each with its hyphens, and its effect. -/
structure OptionRule (α : Type) where
  names : List String
  effect : OptionEffect α

/-- Which arguments are the operands. -/
inductive OperandRule where
  | run
  | rest
  deriving DecidableEq, Repr

/-- What a command accepts. -/
structure Grammar (α : Type) where
  options : List (OptionRule α)
  operands : OperandRule

/-- An option as it stands on the command line. -/
structure Occurrence (α : Type) where
  rule : OptionRule α
  short : Bool
  /-- The text that is attached to the name. -/
  attached : Option (List Char)

/-- An argument that has been told apart from the others. -/
inductive Item (α : Type) where
  | separator
  | operand (text : String)
  | option (text : String) (occurrence : Option (Occurrence α))

namespace Item

variable {α : Type}

def text : Item α → String
  | .separator => "--"
  | .operand text => text
  | .option text _ => text

def isOperand : Item α → Bool
  | .operand _ => true
  | _ => false

def isOption : Item α → Bool
  | .option .. => true
  | _ => false

end Item

namespace OptionRule

variable {α : Type}

def takesArgument (rule : OptionRule α) : Bool :=
  match rule.effect with
  | .help | .version | .switch _ => false
  | .text _ | .integer _ | .choice .. => true

/-- The arguments of the command after an option with its argument; a switch ignores the argument,
and one without a value is not looked at. -/
def apply (rule : OptionRule α) (argument : Option String) (arguments : α) : Except Stop α :=
  match rule.effect, argument with
  | .help, _ => .error .help
  | .version, _ => .error .version
  | .switch change, _ => .ok (change arguments)
  | .text change, argument => .ok (change argument arguments)
  | .integer change, none => .ok (change none arguments)
  | .integer change, some argument =>
      match Numeral.decimal? argument.toList with
      | some value => .ok (change (some value) arguments)
      | none => .error (.refused (.notAnInteger rule.names argument))
  | .choice _ change, none => .ok (change none arguments)
  | .choice choices change, some argument =>
      if choices.contains argument then .ok (change (some argument) arguments)
      else .error (.refused (.notAChoice rule.names argument choices))

end OptionRule

/-- What one argument with options amounts to. -/
structure Expansion (α : Type) where
  /-- The options, each with its argument if it takes one and has a value. -/
  options : List (OptionRule α × Option String)
  /-- Whether the next argument on the command line is the argument of the last option. -/
  usesNext : Bool := false

/-- What has been read from a command line. -/
structure Parsed (α : Type) where
  arguments : α
  operands : Option (List String) := none
  unrecognized : List String := []

namespace Grammar

variable {α : Type}

/-! ## Telling arguments apart -/

/-- The names of all options, each with its option. -/
def names (grammar : Grammar α) : List (String × OptionRule α) :=
  grammar.options.flatMap fun rule => rule.names.map fun name => (name, rule)

/-- The option with the given name. -/
def rule? (grammar : Grammar α) (name : List Char) : Option (OptionRule α) :=
  grammar.names.lookup (String.ofList name)

/-- A text before its first equals sign, and what follows the sign if there is one. -/
def splitAtEquals (text : List Char) : List Char × Option (List Char) :=
  match text.dropWhile (· != '=') with
  | [] => (text, none)
  | _ :: after => (text.takeWhile (· != '='), some after)

/-- Whether a text is a run of digits. -/
def isDigits (text : List Char) : Bool :=
  text.all fun c => (Text.decimalDigit? c).isSome

/-- Whether a text is a negative number, with a point or without one.  A line feed at the end does
not count. -/
def isNegativeNumber (text : List Char) : Bool :=
  let text := if text.getLast? = some '\n' then text.dropLast else text
  match text with
  | '-' :: digits =>
      match digits.dropWhile (· != '.') with
      | [] => isDigits digits && !digits.isEmpty
      | _ :: fraction =>
          isDigits (digits.takeWhile (· != '.')) && isDigits fraction && !fraction.isEmpty
  | _ => false

/-- The options that an argument could mean, with their names.  The argument begins with a hyphen
and is not itself a name of an option. -/
def candidates (grammar : Grammar α) (argument : List Char) : List (String × Occurrence α) :=
  match argument with
  | '-' :: '-' :: _ =>
      let (front, attached) := splitAtEquals argument
      (grammar.names.filter fun (name, _) => front.isPrefixOf name.toList).map fun (name, rule) =>
        (name, ⟨rule, false, attached⟩)
  | '-' :: c :: rest =>
      match grammar.rule? ['-', c] with
      | some rule => [(String.ofList ['-', c], ⟨rule, true, some rest⟩)]
      | none => []
  | _ => []

/-- Whether a name has a single hyphen. -/
def isShort (name : List Char) : Bool := name[1]? != some '-'

/-- What an argument that begins with a hyphen is. -/
def interpretOption (grammar : Grammar α) (argument : List Char) : Except UsageFault (Item α) :=
  let text := String.ofList argument
  let (front, attached) := splitAtEquals argument
  -- A full name wins over one that is cut at an equals sign, and both win over a shortened one.
  match grammar.rule? argument, grammar.rule? front with
  | some rule, _ => .ok (.option text (some ⟨rule, isShort argument, none⟩))
  | none, some rule => .ok (.option text (some ⟨rule, isShort front, attached⟩))
  | none, none =>
      match grammar.candidates argument with
      | [(_, occurrence)] => .ok (.option text (some occurrence))
      | [] =>
          -- No option begins this way, so the argument may still be a value.
          if isNegativeNumber argument || argument.contains ' ' then .ok (.operand text)
          else .ok (.option text none)
      | several => .error (.ambiguous text (several.map (·.1)))

def interpret (grammar : Grammar α) (argument : String) : Except UsageFault (Item α) :=
  match argument.toList with
  | '-' :: c :: rest => grammar.interpretOption ('-' :: c :: rest)
  | _ => .ok (.operand argument)

def items (grammar : Grammar α) : List String → Except UsageFault (List (Item α))
  | [] => .ok []
  | argument :: rest =>
      if argument = "--" then .ok (.separator :: rest.map .operand)
      else do
        let item ← grammar.interpret argument
        let items ← grammar.items rest
        return item :: items

/-! ## Options in one argument -/

/-- An option to which nothing is attached; `next` is the operand after it. -/
def expandBare (rule : OptionRule α) (next : Option String) : Except UsageFault (Expansion α) :=
  if rule.takesArgument then
    match next with
    | some argument => .ok { options := [(rule, some argument)], usesNext := true }
    | none => .error (.argumentExpected rule.names)
  else .ok { options := [(rule, none)] }

/-- The argument that an attached text stands for: one that only separates has no value. -/
def attachedArgument (text : List Char) : Option String :=
  if text = ['-', '-'] then none else some (String.ofList text)

/-- An option with the text that is attached to it: its argument, or more options. -/
def expandAttached (grammar : Grammar α) (next : Option String) (rule : OptionRule α)
    (short : Bool) (text : List Char) : Except UsageFault (Expansion α) :=
  if rule.takesArgument then .ok { options := [(rule, attachedArgument text)] }
  else
    match text with
    | [] => .error (.argumentIgnored rule.names "")
    | c :: rest =>
        -- After a short option the text is read as if it had a hyphen of its own.
        match if short then grammar.rule? ['-', c] else none with
        | none => .error (.argumentIgnored rule.names (String.ofList (c :: rest)))
        | some another => do
            let expansion ←
              match rest with
              | [] => expandBare another next
              | attached => grammar.expandAttached next another true attached
            return { expansion with options := (rule, none) :: expansion.options }
termination_by text.length

/-- The options that an occurrence stands for. -/
def expand (grammar : Grammar α) (occurrence : Occurrence α) (next : Option String) :
    Except UsageFault (Expansion α) :=
  match occurrence.attached with
  | none => expandBare occurrence.rule next
  | some text => grammar.expandAttached next occurrence.rule occurrence.short text

/-! ## Reading from the left -/

/-- The next argument if it is an operand. -/
def nextOperand? : List (Item α) → Option String
  | .operand text :: _ => some text
  | _ => none

/-- The operands in a run; the argument that only separates is none of them. -/
def operandTexts (run : List (Item α)) : List String :=
  (run.map Item.text).erase "--"

theorem length_dropWhile_le (p : Item α → Bool) (items : List (Item α)) :
    (items.dropWhile p).length ≤ items.length :=
  (List.dropWhile_sublist p).length_le

/-- Reads what is left of a command line. -/
def parseItems (grammar : Grammar α) (items : List (Item α)) (parsed : Parsed α) :
    Except Stop (Parsed α) :=
  match items with
  | [] => .ok parsed
  | .option text none :: rest =>
      grammar.parseItems rest { parsed with unrecognized := parsed.unrecognized ++ [text] }
  | .option _ (some occurrence) :: rest => do
      let expansion ← (grammar.expand occurrence (nextOperand? rest)).mapError .refused
      -- The options count only once all of the argument is understood.
      let arguments ← expansion.options.foldlM
        (fun arguments (rule, argument) => rule.apply argument arguments) parsed.arguments
      grammar.parseItems (if expansion.usesNext then rest.drop 1 else rest)
        { parsed with arguments }
  | item :: rest =>
      let run := item :: rest.takeWhile fun item => !item.isOption
      let after := rest.dropWhile fun item => !item.isOption
      if parsed.operands.isNone && run.any Item.isOperand then
        match grammar.operands with
        | .run => grammar.parseItems after { parsed with operands := some (operandTexts run) }
        | .rest => .ok { parsed with operands := some ((item :: rest).map Item.text) }
      else
        grammar.parseItems after
          { parsed with unrecognized := parsed.unrecognized ++ run.map Item.text }
termination_by items.length
decreasing_by
  · simp
  · rw [List.length_cons]
    split
    · rw [List.length_drop]
      omega
    · omega
  · have := length_dropWhile_le (fun item : Item α => !item.isOption) rest
    rw [List.length_cons]
    omega
  · have := length_dropWhile_le (fun item : Item α => !item.isOption) rest
    rw [List.length_cons]
    omega

/-- Reads a command line; `initial` holds the arguments where nothing is said. -/
def parse (grammar : Grammar α) (initial : α) (arguments : List String) :
    Except Stop (Parsed α) := do
  let items ← (grammar.items arguments).mapError .refused
  grammar.parseItems items { arguments := initial }

end Grammar

end XmlToJson.CommandLine
