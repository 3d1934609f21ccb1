import XmlToJson.Position
import XmlToJson.Text.Search

/-!
# Cursors

A cursor stands between two characters of a text: it holds what is still to be read and where that
begins.  The character that was stepped over last can be pushed back, once; a jump over several
characters cannot be taken back.
-/

namespace XmlToJson

/-- A place between two characters of a text that is being read. -/
structure Cursor where
  /-- The characters that are still to be read. -/
  rest : List Char
  /-- Where the first of them stands. -/
  position : Position
  /-- The character that can be pushed back, and where it stood. -/
  previous : Option (Char × Position) := none
  deriving DecidableEq, Repr

namespace Cursor

/-- The cursor before the first character of a text. -/
def ofText (text : String) : Cursor where
  rest := text.toList
  position := .start

/-- The number of characters that are left to read. -/
def remaining (cursor : Cursor) : Nat :=
  cursor.rest.length

/-- Steps over one character, which can then be pushed back.  At the end there is none, and nothing
can be pushed back. -/
def next (cursor : Cursor) : Option Char × Cursor :=
  match cursor.rest with
  | [] => (none, { cursor with previous := none })
  | c :: rest =>
      (some c,
        { rest := rest
          position := cursor.position.advance c
          previous := some (c, cursor.position) })

/-- The cursor before the character that was stepped over last. -/
def back? (cursor : Cursor) : Option Cursor :=
  cursor.previous.map fun (c, position) => { rest := c :: cursor.rest, position := position }

/-- Jumps over `count` characters, or over all that are left if there are fewer. -/
def skip (cursor : Cursor) (count : Nat) : Cursor where
  rest := cursor.rest.drop count
  position := cursor.position.advanceOver (cursor.rest.take count)

/-- Jumps over `count` characters and steps over the one after them. -/
def skipAndStep (cursor : Cursor) (count : Nat) : Cursor :=
  (cursor.skip count).next.2

def skipAll (cursor : Cursor) : Cursor :=
  cursor.skip cursor.remaining

/-- Jumps past the next occurrence of `literal`, or over everything if there is none. -/
def skipPast (cursor : Cursor) (literal : String) : Bool × Cursor :=
  match Text.indexOf? literal.toList cursor.rest with
  | some index => (true, cursor.skip (index + literal.length))
  | none => (false, cursor.skipAll)

@[simp] theorem remaining_skip (cursor : Cursor) (count : Nat) :
    (cursor.skip count).remaining = cursor.remaining - count := by
  simp [remaining, skip]

@[simp] theorem remaining_next (cursor : Cursor) :
    cursor.next.2.remaining = cursor.remaining - 1 := by
  rcases cursor with ⟨- | ⟨c, rest⟩, position, previous⟩ <;> simp [next, remaining]

@[simp] theorem remaining_skipAndStep (cursor : Cursor) (count : Nat) :
    (cursor.skipAndStep count).remaining = cursor.remaining - count - 1 := by
  simp [skipAndStep]

theorem skip_skip (cursor : Cursor) (first second : Nat) :
    (cursor.skip first).skip second = cursor.skip (first + second) := by
  simp only [skip, List.drop_drop, ← Position.advanceOver_append, List.take_add]

theorem skip_next (cursor : Cursor) (count : Nat) :
    cursor.next.2.skip count = cursor.skip (1 + count) := by
  rcases cursor with ⟨- | ⟨c, rest⟩, position, previous⟩
  · simp [next, skip]
  · simp [next, skip, Nat.add_comm]

theorem skipAndStep_skip (cursor : Cursor) (first second : Nat) :
    (cursor.skipAndStep first).skip second = cursor.skip (first + (1 + second)) := by
  rw [skipAndStep, skip_next, skip_skip]

/-- Pushing back after a step restores the place. -/
theorem back?_next {cursor : Cursor} {c : Char} (h : cursor.next.1 = some c) :
    cursor.next.2.back? = some { cursor with previous := none } := by
  rcases cursor with ⟨- | ⟨d, rest⟩, position, previous⟩
  · simp [next] at h
  · simp [next, back?]

end Cursor

end XmlToJson
