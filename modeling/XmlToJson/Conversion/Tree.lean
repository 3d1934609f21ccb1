import XmlToJson.Conversion.Markup

/-!
# The tree of a document

An element is converted by reading its pieces one after the other until it is closed.  An element
inside it is converted the same way, one level deeper, and is then folded into the value that it
contributes.  At the level of the document only markup counts, and the end of the text ends it.
-/

namespace XmlToJson

/-- The outcome of converting an element that began with at most `bound` left to read. -/
abbrev ElementOutcome (bound : Nat) :=
  Onward Failure Object ConversionState.remaining bound

/-- Reads the pieces of the element `tag`, at the given depth, up to its closing tag.  What has been
read of it so far is in `object`. -/
def elementWithin (converter : Converter) (tag : String) (depth : Nat) (object : Object)
    (bound : Nat) (state : ConversionState) (inside : state.remaining ≤ bound) :
    ElementOutcome bound :=
  match Onward.run (content converter tag depth) (strictlyForward_content converter tag depth)
      state with
  | .error failure after => .error failure after
  | .ok .closed after shorter => .ok object after (by omega)
  | .ok .skipped after shorter =>
      elementWithin converter tag depth object bound after (by omega)
  | .ok (.contribution key value) after shorter =>
      elementWithin converter tag depth (object.append key value) bound after (by omega)
  | .ok (.opened child attributes) after shorter =>
      -- The inner element ends with less to read than it began with, so `bound` still holds.
      match elementWithin converter child (depth + 1) attributes after.remaining after
          (Nat.le_refl _) with
      | .error failure behind => .error failure behind
      | .ok inner behind further =>
          elementWithin converter tag depth (object.append child inner.fold) bound behind (by omega)
  termination_by state.remaining

/-- Reads an element whose opening tag has been read. -/
def element (converter : Converter) (tag : String) (depth : Nat) (attributes : Object)
    (state : ConversionState) : ElementOutcome state.remaining :=
  elementWithin converter tag depth attributes state.remaining state (Nat.le_refl _)

/-- The state behind the next `<`, if one comes. -/
def ConversionState.pastLess? (state : ConversionState) :
    Option { after : ConversionState // after.remaining < state.remaining } :=
  match h : Text.indexOf? ['<'] state.cursor.rest with
  | none => none
  | some index =>
      some ⟨{ state with cursor := state.cursor.skip (index + 1) }, by
        have hle := Text.indexOf?_add_le h
        simp only [remaining, Cursor.remaining_skip]
        simp only [Cursor.remaining, List.length_singleton] at hle ⊢
        omega⟩

/-- The state at the end of the text. -/
def ConversionState.atEnd (state : ConversionState) : ConversionState :=
  { state with cursor := state.cursor.skipAll }

/-- Reads the rest of a document.  What has been read of it so far is in `root`. -/
def document (converter : Converter) (root : Object) (state : ConversionState) :
    EStateM.Result Failure ConversionState Object :=
  match state.pastLess? with
  | none => .ok root state.atEnd
  | some ⟨opened, _⟩ =>
      match Onward.run (markup converter none 0) (strictlyForward_markup converter none 0)
          opened with
      | .error failure after => .error failure after
      | .ok .closed after _ => document converter root after
      | .ok .skipped after _ => document converter root after
      | .ok (.contribution key value) after _ =>
          document converter (root.append key value) after
      | .ok (.opened tag attributes) after _ =>
          match element converter tag 1 attributes after with
          | .error failure behind => .error failure behind
          | .ok inner behind _ => document converter (root.append tag inner.fold) behind
  termination_by state.remaining

end XmlToJson
