/-!
# Positions in a text

Where a character stands: its line and column, counted from one, and its offset, counted from zero
in characters.  Only a line feed starts a new line.
-/

namespace XmlToJson

/-- A place in a text. -/
structure Position where
  /-- The line, counted from one. -/
  line : Nat
  /-- The column in the line, counted from one. -/
  column : Nat
  /-- The number of characters before the place. -/
  offset : Nat
  line_pos : 1 ≤ line := by omega
  column_pos : 1 ≤ column := by omega
  deriving DecidableEq, Repr

namespace Position

/-- The place before the first character. -/
def start : Position where
  line := 1
  column := 1
  offset := 0

/-- The place after the character `c`. -/
def advance (position : Position) (c : Char) : Position :=
  if c = '\n' then
    { line := position.line + 1, column := 1, offset := position.offset + 1 }
  else
    { line := position.line
      column := position.column + 1
      offset := position.offset + 1
      line_pos := position.line_pos }

/-- The place after all of `text`. -/
def advanceOver (position : Position) (text : List Char) : Position :=
  text.foldl advance position

@[simp] theorem advanceOver_nil (position : Position) : position.advanceOver [] = position := rfl

@[simp] theorem advanceOver_cons (position : Position) (c : Char) (rest : List Char) :
    position.advanceOver (c :: rest) = (position.advance c).advanceOver rest := rfl

theorem advanceOver_append (position : Position) (first second : List Char) :
    position.advanceOver (first ++ second) = (position.advanceOver first).advanceOver second := by
  simp [advanceOver]

theorem offset_advance (position : Position) (c : Char) :
    (position.advance c).offset = position.offset + 1 := by
  unfold advance
  split <;> rfl

theorem offset_advanceOver (position : Position) (text : List Char) :
    (position.advanceOver text).offset = position.offset + text.length := by
  induction text generalizing position with
  | nil => rfl
  | cons c rest ih =>
      rw [advanceOver_cons, ih, offset_advance, List.length_cons]
      omega

/-- How a message names a place. -/
def describe (position : Position) : String :=
  s!"line {position.line}, column {position.column} (offset {position.offset})"

/-- Why three numbers are no position. -/
inductive Fault where
  | lineTooSmall
  | columnTooSmall
  | offsetTooSmall
  deriving DecidableEq, Repr

def Fault.message : Fault → String
  | .lineTooSmall => "Line number must be >= 1"
  | .columnTooSmall => "Column number must be >= 1"
  | .offsetTooSmall => "Offset must be >= 0"

/-- The position with the given line, column and offset; the first of them that is too small is
the one that is reported. -/
def ofInts (line column offset : Int) : Except Fault Position :=
  if hline : line < 1 then .error .lineTooSmall
  else if hcolumn : column < 1 then .error .columnTooSmall
  else if offset < 0 then .error .offsetTooSmall
  else .ok { line := line.toNat, column := column.toNat, offset := offset.toNat }

end Position

end XmlToJson
