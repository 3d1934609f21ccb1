import XmlToJson.Markup.Scan

/-!
# Tokenizers

A tokenizer holds a whole text, how many characters of it have been read, and two counters that
go along: the line of the next character and the place where that line begins.  It reads one
character after the other.  The character that was read last can be pushed back, once; a jump
over several characters cannot be taken back.

There are three ways for the counters to follow.  A step over a line feed begins a line, a step
back over one looks for the beginning of the line before it, and a jump counts the line feeds
that it passes and looks for the last of them.  A scan reads until a character tells that it is
over.  If that character belongs to what comes next, it is pushed back.

The counters are whole numbers of either sign, and nothing in their types says that they make up
a position: whoever asks for one may be refused.  So a step can fail in three ways, with an error
in the text, with counters that are no position, and with an index at which there is no character.
-/

namespace XmlToJson

/-- A text that is read character by character. -/
structure Tokenizer where
  source : List Char
  /-- The number of characters that have been read. -/
  index : Int := 0
  /-- The line of the next character, counted from one. -/
  line : Int := 1
  /-- The place where that line begins. -/
  lineStart : Int := 0
  /-- Whether the character that was read last can be pushed back. -/
  canBack : Bool := false
  deriving DecidableEq, Repr

namespace Tokenizer

/-- Why a step of a tokenizer fails. -/
inductive Failure where
  | malformed (error : MarkupError)
  /-- The counters make up no position. -/
  | misplaced (fault : Position.Fault)
  /-- There is no character at the index. -/
  | outside
  deriving DecidableEq, Repr

/-- What comes of a step: it returns something or fails, and leaves a tokenizer behind. -/
abbrev Outcome := EStateM.Result Failure Tokenizer

end Tokenizer

/-- A step of a tokenizer. -/
abbrev Tokenizing := EStateM Tokenizer.Failure Tokenizer

namespace Tokenizer

def ofText (text : String) : Tokenizer where
  source := text.toList

/-- Whether something is left to read. -/
def more (tokenizer : Tokenizer) : Bool :=
  tokenizer.index < tokenizer.source.length

/-- The number of characters that are left to read. -/
def left (tokenizer : Tokenizer) : Nat :=
  (tokenizer.source.length - tokenizer.index).toNat

/-! ## Positions -/

/-- The position of the next character. -/
def position (tokenizer : Tokenizer) : Except Position.Fault Position :=
  Position.ofInts tokenizer.line (tokenizer.index - tokenizer.lineStart + 1) tokenizer.index

/-- The position of the character that was read last, which is no line feed. -/
def lastPosition : Tokenizing Position := fun tokenizer =>
  match Position.ofInts tokenizer.line (tokenizer.index - tokenizer.lineStart)
      (tokenizer.index - 1) with
  | .ok position => .ok position tokenizer
  | .error fault => .error (.misplaced fault) tokenizer

/-- Fails at the next character. -/
def fail {α : Type} (fault : MarkupFault) : Tokenizing α := fun tokenizer =>
  match tokenizer.position with
  | .ok position => .error (.malformed ⟨fault, some position⟩) tokenizer
  | .error fault => .error (.misplaced fault) tokenizer

/-! ## Moving -/

/-- Reads the next character, which can then be pushed back.  At the end there is none, and nothing
can be pushed back. -/
def next : Tokenizing (Option Char) := fun tokenizer =>
  if tokenizer.source.length ≤ tokenizer.index then .ok none { tokenizer with canBack := false }
  else
    match Text.charAt? tokenizer.source tokenizer.index with
    | none => .error .outside tokenizer
    | some c =>
        let after := { tokenizer with index := tokenizer.index + 1, canBack := true }
        if c = '\n' then
          .ok (some c) { after with line := tokenizer.line + 1, lineStart := after.index }
        else .ok (some c) after

/-- Pushes the character back that was read last. -/
def back : Tokenizing Unit := fun tokenizer =>
  if tokenizer.canBack then
    let before := { tokenizer with index := tokenizer.index - 1, canBack := false }
    match Text.charAt? tokenizer.source before.index with
    | none => .error .outside before
    | some c =>
        if c = '\n' then
          .ok () { before with
            line := tokenizer.line - 1
            lineStart := Text.findLast '\n' tokenizer.source 0 before.index + 1 }
        else .ok () before
  else fail .pushedBackTwice tokenizer

/-- Returns a value, and leaves the character that was read last to what comes next. -/
def backWith {α : Type} (value : α) : Tokenizing α := fun tokenizer =>
  match back tokenizer with
  | .ok () before => .ok value before
  | .error failure before => .error failure before

/-- Jumps to another place. -/
def advanceTo (tokenizer : Tokenizer) (index : Int) : Tokenizer :=
  let feeds := (Text.slice tokenizer.source tokenizer.index index).count '\n'
  let after := { tokenizer with index, canBack := false }
  if feeds = 0 then after
  else
    { after with
      line := tokenizer.line + feeds
      lineStart := Text.findLast '\n' tokenizer.source tokenizer.index index + 1 }

/-- Jumps past the next occurrence of `literal`, or over everything if there is none. -/
def skipPast (literal : String) : Tokenizing Bool := fun tokenizer =>
  let found := Text.find literal.toList tokenizer.source tokenizer.index
  if found < 0 then .ok false (tokenizer.advanceTo tokenizer.source.length)
  else .ok true (tokenizer.advanceTo (found + literal.length))

/-- Reading a character leaves fewer of them. -/
theorem left_next {tokenizer after : Tokenizer} {c : Char}
    (h : next tokenizer = .ok (some c) after) : after.left < tokenizer.left := by
  unfold next at h
  split at h
  · simp at h
  · next hmore =>
      have hless : ∀ other : Tokenizer, other.source = tokenizer.source →
          other.index = tokenizer.index + 1 → other.left < tokenizer.left := by
        intro other hsource hindex
        rw [left, left, hsource, hindex]
        omega
      split at h
      · contradiction
      · dsimp only at h
        split at h <;> obtain ⟨-, rfl⟩ := by simpa using h
        · exact hless _ rfl rfl
        · exact hless _ rfl rfl

/-! ## Loops of the scans -/

/-- Reads up to a character that is no blank, and returns it. -/
def skipBlanks : Tokenizing (Option Char) := fun tokenizer =>
  match h : next tokenizer with
  | .ok (some c) after =>
      have := left_next h
      if Text.isBlank c then skipBlanks after else .ok (some c) after
  | .ok none after => .ok none after
  | .error failure after => .error failure after
  termination_by tokenizer => tokenizer.left

/-- Resolves a reference of which `opening` and `name` have been read. -/
def reference (opening : String) (name : List Char) : Tokenizing (List Char) := fun tokenizer =>
  match h : next tokenizer with
  | .ok (some c) after =>
      have := left_next h
      if Reference.isNameChar c then reference opening (name ++ [c]) after
      else if c = ';' then .ok (Reference.expand name) after
      else fail (.unterminatedReference opening (String.ofList name)) after
  | .ok none after => fail (.unterminatedReference opening (String.ofList name)) after
  | .error failure after => .error failure after
  termination_by tokenizer => tokenizer.left

/-- What a character of character data stands for, which is its reference if it opens one. -/
def piece (c : Char) : Tokenizing (List Char) := fun tokenizer =>
  if c = '&' then reference "&" [] tokenizer else .ok [c] tokenizer

theorem fail_ne_ok {α : Type} {fault : MarkupFault} {value : α} {tokenizer after : Tokenizer} :
    fail fault tokenizer ≠ .ok value after := by
  unfold fail
  split <;> simp

theorem left_reference {opening : String} {name value : List Char} {tokenizer after : Tokenizer}
    (h : reference opening name tokenizer = .ok value after) :
    after.left ≤ tokenizer.left := by
  fun_induction reference opening name tokenizer with
  | case1 name tokenizer c between hnext shorter hc ih =>
      exact Nat.le_trans (ih h) (Nat.le_of_lt shorter)
  | case2 name tokenizer between hnext shorter =>
      obtain ⟨-, rfl⟩ := by simpa using h
      exact Nat.le_of_lt shorter
  | case3 | case4 => exact absurd h fail_ne_ok
  | case5 => contradiction

theorem left_piece {c : Char} {value : List Char} {tokenizer after : Tokenizer}
    (h : piece c tokenizer = .ok value after) : after.left ≤ tokenizer.left := by
  unfold piece at h
  split at h
  · exact left_reference h
  · obtain ⟨-, rfl⟩ := by simpa using h
    exact Nat.le_refl _

/-- Reads a quoted value up to `quote`, behind the opening quote and `value`. -/
def quotedValue (quote : Char) (value : List Char) : Tokenizing (List Char) := fun tokenizer =>
  match hnext : next tokenizer with
  | .ok (some c) after =>
      if c = quote then .ok value after
      else
        match hpiece : piece c after with
        | .ok more behind =>
            have := Nat.lt_of_le_of_lt (left_piece hpiece) (left_next hnext)
            quotedValue quote (value ++ more) behind
        | .error failure behind => .error failure behind
  | .ok none after => fail .unterminatedString after
  | .error failure after => .error failure after
  termination_by tokenizer => tokenizer.left

/-- Reads the rest of a bare name, of which `name` has been read.  A blank that ends the name is
read with it. -/
def bareName (name : List Char) : Tokenizing (List Char) := fun tokenizer =>
  match h : next tokenizer with
  | .ok (some c) after =>
      have := left_next h
      if Text.isBlank c then .ok name after
      else if Scan.endsName c then backWith name after
      else if Scan.isBadInName c then fail .badNameCharacter after
      else bareName (name ++ [c]) after
  | .ok none after => .ok name after
  | .error failure after => .error failure after
  termination_by tokenizer => tokenizer.left

/-- Reads the rest of a fragment, of which `run` has been read. -/
def fragment (run : List Char) : Tokenizing (List Char) := fun tokenizer =>
  match h : next tokenizer with
  | .ok (some c) after =>
      have := left_next h
      if Text.isBlank c then .ok run after
      else if (Marker.ofChar? c).isSome || Scan.isQuote c then backWith run after
      else fragment (run ++ [c]) after
  | .ok none after => .ok run after
  | .error failure after => .error failure after
  termination_by tokenizer => tokenizer.left

/-- Reads character data up to a `<`.  The character `c` was read last, and `data` stands for what
was read before it. -/
def characterData (data : List Char) (c : Char) : Tokenizing (List Char) := fun tokenizer =>
  if c = '<' then backWith data tokenizer
  else
    match hpiece : piece c tokenizer with
    | .error failure behind => .error failure behind
    | .ok more behind =>
        match hnext : next behind with
        | .ok (some d) after =>
            have := Nat.lt_of_lt_of_le (left_next hnext) (left_piece hpiece)
            characterData (data ++ more) d after
        | .ok none after => .ok (data ++ more) after
        | .error failure after => .error failure after
  termination_by tokenizer => tokenizer.left

/-! ## Scans -/

/-- Reads the next token inside a tag: a marker, a quoted value or a bare name. -/
def nextToken : Tokenizing Token := do
  match ← skipBlanks with
  | none => fail .missingToken
  | some c =>
      let start ← lastPosition
      if c = '<' then fail .misplacedLess
      else
        match Marker.ofChar? c with
        | some marker => return ⟨.marker marker, c.toString, start⟩
        | none =>
            if Scan.isQuote c then
              let value ← quotedValue c []
              return ⟨.quoted, String.ofList value, start⟩
            else
              let name ← bareName [c]
              return ⟨.name, String.ofList name, start⟩

/-- Reads what comes next between two tags: a `<`, or the text before it with references replaced
and without the blanks around it.  At the end there is nothing. -/
def nextContent : Tokenizing (Option Token) := do
  match ← skipBlanks with
  | none => return none
  | some c =>
      let start ← lastPosition
      if c = '<' then return some ⟨.marker .less, c.toString, start⟩
      else
        let data ← characterData [] c
        return some ⟨.text, String.ofList (Text.trim data), start⟩

/-- Reads a quoted run of a declaration up to `quote`, behind the opening quote.  If it is not
closed, everything is read and there is nothing. -/
def quotedRun (quote : Char) (start : Position) : Tokenizing (Option Token) := fun tokenizer =>
  let found := Text.find [quote] tokenizer.source tokenizer.index
  if found < 0 then .ok none (tokenizer.advanceTo tokenizer.source.length)
  else
    let run := Text.slice tokenizer.source tokenizer.index found
    .ok (some ⟨.fragment, String.ofList run, start⟩) (tokenizer.advanceTo (found + 1))

/-- Reads the next token of a declaration: a marker, or a fragment that is not looked into.  A
quoted run without its closing quote and the end of the text give nothing. -/
def nextFragment : Tokenizing (Option Token) := do
  match ← skipBlanks with
  | none => return none
  | some c =>
      let start ← lastPosition
      match Marker.ofChar? c with
      | some marker => return some ⟨.marker marker, c.toString, start⟩
      | none =>
          if Scan.isQuote c then quotedRun c start
          else
            let run ← fragment [c]
            return some ⟨.fragment, String.ofList run, start⟩

/-- Reads the text of a CDATA section with the brackets that close it.  A section that is not
closed leaves the tokenizer where it is. -/
def cdataText : Tokenizing String := fun tokenizer =>
  let found := Text.find "]]>".toList tokenizer.source tokenizer.index
  if found < 0 then fail .unclosedCdata tokenizer
  else
    .ok (String.ofList (Text.slice tokenizer.source tokenizer.index found))
      (tokenizer.advanceTo (found + 3))

end Tokenizer

/-! ## Operations -/

/-- What can be asked of a tokenizer. -/
inductive Operation where
  | next
  | back
  | skipPast (literal : String)
  | token
  | content
  | fragment
  | cdata
  | reference (opening : String)
  deriving DecidableEq, Repr

/-- What an operation returns. -/
inductive Answer where
  | character (c : Option Char)
  | steppedBack
  | found (found : Bool)
  | token (token : Option Token)
  | text (text : String)
  deriving DecidableEq, Repr

namespace Tokenizer

/-- Carries out an operation. -/
def perform : Operation → Tokenizing Answer
  | .next => .character <$> next
  | .back => (fun _ => .steppedBack) <$> back
  | .skipPast literal => .found <$> skipPast literal
  | .token => (fun token => .token (some token)) <$> nextToken
  | .content => .token <$> nextContent
  | .fragment => .token <$> nextFragment
  | .cdata => .text <$> cdataText
  | .reference opening => (fun value => .text (String.ofList value)) <$> reference opening []

/-- The tokenizer that an operation leaves behind, whether it fails or not. -/
def after (tokenizer : Tokenizer) (operation : Operation) : Tokenizer :=
  match perform operation tokenizer with
  | .ok _ stop => stop
  | .error _ stop => stop

/-- The tokenizer behind a sequence of operations, which goes on where one of them has failed. -/
def run (operations : List Operation) (tokenizer : Tokenizer) : Tokenizer :=
  operations.foldl after tokenizer

end Tokenizer

end XmlToJson
