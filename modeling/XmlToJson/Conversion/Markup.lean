import XmlToJson.Conversion.State

/-!
# Markup

What stands behind a `<`: a tag, a comment, a processing instruction, a CDATA section or a
declaration.  `markup` reads one of them and says what it is for the element around it: a
contribution, the beginning of an element, the end of the element, or nothing.  `content` does the
same for the next piece of an element, which may be text.

Every piece takes at least one character (`strictlyForward_markup`, `strictlyForward_content`).
-/

namespace XmlToJson

/-- What a piece of a document is for the element around it. -/
inductive Piece where
  | skipped
  /-- It adds a value for a key. -/
  | contribution (key : String) (value : Value)
  /-- It opens an element that has the given attributes. -/
  | opened (tag : String) (attributes : Object)
  /-- It closes the element. -/
  | closed

/-- What an exclamation mark behind a `<` begins. -/
inductive MarkupSort where
  | comment
  /-- A section in brackets. -/
  | bracketed
  | declaration
  deriving DecidableEq, Repr

namespace Scan

/-- Reads what tells a comment, a section and a declaration apart.  The first character of a
declaration is read with it. -/
def markupSort : Scan MarkupSort := fun cursor =>
  match cursor.rest with
  | '-' :: '-' :: _ => .ok .comment (cursor.skip 2)
  | '[' :: _ => .ok .bracketed (cursor.skip 1)
  -- One hyphen alone is a first character like any other.
  | _ => .ok .declaration (cursor.skip 1)

/-- Reads the next token of a declaration, which has to come. -/
def declarationToken : Scan Token := fun cursor =>
  match nextFragment cursor with
  | .ok (some token) stop => .ok token stop
  | .ok none stop => fail .unclosedDeclaration stop
  | .error error stop => .error error stop

theorem strictlyForward_declarationToken :
    StrictlyForward Cursor.remaining declarationToken := by
  intro cursor token stop h
  simp only [declarationToken] at h
  split at h
  · next found after hfound =>
      obtain ⟨rfl, rfl⟩ := by simpa using h
      exact remaining_nextFragment hfound
  · simp [fail] at h
  · simp at h

/-- Reads the rest of a declaration; `nesting` is the number of `<` in it that are still open. -/
def declarationEnd (nesting : Nat) (cursor : Cursor) : EStateM.Result MarkupError Cursor Unit :=
  match Onward.run declarationToken strictlyForward_declarationToken cursor with
  | .error error stop => .error error stop
  | .ok token stop _ =>
      if token.isThe .less then declarationEnd (nesting + 1) stop
      else if token.isThe .greater then
        match nesting with
        | 0 => .ok () stop
        | outer + 1 => declarationEnd outer stop
      else declarationEnd nesting stop
  termination_by cursor.remaining

/-- Reads the bracket behind the name of a CDATA section. -/
def cdataBracket : Scan Unit := fun cursor =>
  match cursor.next with
  | (some '[', stop) => .ok () stop
  | (_, stop) => fail .notCdata stop

end Scan

open Step

/-- Reads the rest of an attribute, behind its name: its value, and the token that comes next.  An
attribute without an equals sign has an empty text as its value. -/
def attributeRest (converter : Converter) : Step (Value × Token) := do
  let second ← scan Scan.nextToken
  if second.isThe .equals then
    let value ← scan Scan.nextToken
    require value.isIdentifier .missingValue
    let value ← scalar converter value.value
    count Metrics.countAttribute
    let third ← scan Scan.nextToken
    return (value, third)
  else
    count Metrics.countAttribute
    return (.string "", second)

/-- How the opening tag of an element ends. -/
inductive TagEnd where
  | content
  | selfClosing
  deriving DecidableEq, Repr

/-- Reads the end of a tag whose last token, which names no attribute, is given. -/
def tagEnd (token : Token) : Step TagEnd := do
  if token.isThe .slash then
    let last ← scan Scan.nextToken
    require (last.isThe .greater) .misshapenTag
    return .selfClosing
  else
    require (token.isThe .greater) .misshapenTag
    return .content

section Forward

variable {α : Type}

theorem ok_of_scan {reading : Scan α} {before after : ConversionState} {value : α}
    (h : scan reading before = .ok value after) :
    ∃ stop, reading before.cursor = .ok value stop ∧ { before with cursor := stop } = after := by
  unfold scan at h
  split at h
  · next found stop hfound =>
      obtain ⟨rfl, hafter⟩ := EStateM.Result.ok.inj h
      exact ⟨stop, hfound, hafter⟩
  · contradiction

theorem strictlyForward_scan {reading : Scan α}
    (h : StrictlyForward Cursor.remaining reading) :
    StrictlyForward ConversionState.remaining (scan reading) := by
  intro before value after hscan
  obtain ⟨stop, hstop, rfl⟩ := ok_of_scan hscan
  exact h hstop

theorem forward_scan {reading : Scan α} (h : Forward Cursor.remaining reading) :
    Forward ConversionState.remaining (scan reading) := by
  intro before value after hscan
  obtain ⟨stop, hstop, rfl⟩ := ok_of_scan hscan
  exact h hstop

theorem strictlyForward_fault (problem : MarkupFault) :
    StrictlyForward ConversionState.remaining (fault problem : Step α) := by
  intro before value after h
  simp [fault, scan, Scan.fail] at h

theorem strictlyForward_token :
    StrictlyForward ConversionState.remaining (scan Scan.nextToken) :=
  strictlyForward_scan Scan.strictlyForward_nextToken

theorem forward_require (condition : Bool) (problem : MarkupFault) :
    Forward ConversionState.remaining (require condition problem) := by
  unfold require
  split
  · exact .pure ()
  · exact (strictlyForward_fault problem).forward

theorem forward_count (change : Metrics → Metrics) :
    Forward ConversionState.remaining (count change) := by
  intro before value after h
  obtain ⟨-, rfl⟩ := by simpa [count] using h
  exact Nat.le_refl _

theorem forward_log (record : LogRecord) :
    Forward ConversionState.remaining (Step.log record) := by
  intro before value after h
  obtain ⟨-, rfl⟩ := by simpa [Step.log] using h
  exact Nat.le_refl _

theorem forward_scalar (converter : Converter) (text : String) :
    Forward ConversionState.remaining (scalar converter text) := by
  unfold scalar
  split
  · exact .pure _
  · split
    · exact .pure _
    · exact ( StrictlyForward.throw _).forward

theorem strictlyForward_attributeRest (converter : Converter) :
    StrictlyForward ConversionState.remaining (attributeRest converter) := by
  refine strictlyForward_token.bind fun second => ?_
  split
  · exact strictlyForward_token.forward.bind fun value =>
      (forward_require _ _).bind fun _ => (forward_scalar _ _).bind fun _ =>
        (forward_count _).bind fun _ => strictlyForward_token.forward.bind fun _ => .pure _
  · exact (forward_count _).bind fun _ => .pure _

theorem forward_tagEnd (token : Token) :
    Forward ConversionState.remaining (tagEnd token) := by
  unfold tagEnd
  split
  · exact strictlyForward_token.forward.bind fun _ => (forward_require _ _).bind fun _ => .pure _
  · exact (forward_require _ _).bind fun _ => .pure _

end Forward

/-- Reads the attributes of a tag from `token` on, and the end of the tag.  The attributes that have
been read are in `object`. -/
def attributes (converter : Converter) (object : Object) (token : Token) (state : ConversionState) :
    EStateM.Result Failure ConversionState (Object × TagEnd) :=
  if token.isIdentifier then
    match Onward.run (attributeRest converter) (strictlyForward_attributeRest converter) state with
    | .error failure after => .error failure after
    | .ok (value, next) after _ =>
        attributes converter (object.append token.value value) next after
  else
    match tagEnd token state with
    | .error failure after => .error failure after
    | .ok ending after => .ok (object, ending) after
  termination_by state.remaining

theorem forward_attributes (converter : Converter) (object : Object) (token : Token) :
    Forward ConversionState.remaining (attributes converter object token) := by
  intro state found after h
  fun_induction attributes converter object token state with
  | case1 => simp at h
  | case2 object token state hname value next between shorter hrun ih =>
      exact Nat.le_trans (ih h) (Nat.le_of_lt shorter)
  | case3 => simp at h
  | case4 object token state hname ending after hend =>
      obtain ⟨-, rfl⟩ := by simpa using h
      exact forward_tagEnd token hend

/-- Reads an element's opening tag, behind its name.  The element stands at the depth after
`depth`, which may be too deep for the settings or for the machine. -/
def openingTag (converter : Converter) (depth : Nat) (name : Token) : Step Piece := do
  let limit := converter.settings.maxNestingDepth
  if limit.isBelow (depth + 1) then
    throw (.refused (.tooDeep limit (some name.value) (some name.position)))
  else if converter.host.elementLevels ≤ depth then
    let state ← get
    throw (.refused (.tooDeep (.integer state.metrics.depth) none (some state.cursor.position)))
  else
    count (·.countElement (depth + 1))
    let first ← scan Scan.nextToken
    let (object, ending) ← attributes converter .empty first
    match ending with
    | .selfClosing => return .contribution name.value object.foldSelfClosing
    | .content => return .opened name.value object

/-- Reads a closing tag, behind its slash.  It has to close the element `enclosing`. -/
def closingTag (enclosing : Option String) : Step Piece := do
  let name ← scan Scan.nextToken
  match enclosing with
  | none => fault (.strayCloseTag name.value)
  | some tag =>
      require (name.isIdentifier && name.value == tag) (.mismatchedCloseTag tag name.value)
      let last ← scan Scan.nextToken
      require (last.isThe .greater) .misshapenCloseTag
      return .closed

/-- The piece that a text or a CDATA section is. -/
def textPiece (converter : Converter) (text : String) : Step Piece := do
  if text = "" then return .skipped
  else
    let value ← scalar converter text
    return .contribution Object.contentKey value

/-- Reads a CDATA section, behind its first bracket. -/
def cdataSection (converter : Converter) : Step Piece := do
  let name ← scan Scan.nextToken
  require (name.isIdentifier && name.value == "CDATA") .notCdata
  scan Scan.cdataBracket
  let text ← scan Scan.cdataText
  count Metrics.countCdata
  textPiece converter text

/-- Reads what stands behind an exclamation mark. -/
def declaration (converter : Converter) : Step Piece := do
  match ← scan Scan.markupSort with
  | .comment =>
      scan (Scan.skipPast "-->" .unclosedComment)
      count Metrics.countComment
      return .skipped
  | .bracketed => cdataSection converter
  | .declaration =>
      scan (Scan.declarationEnd 0)
      count Metrics.countDeclaration
      Step.log (converter.logger.record .debug "Skipped markup declaration" [])
      return .skipped

/-- Reads a processing instruction, behind its question mark. -/
def processingInstruction : Step Piece := do
  scan (Scan.skipPast "?>" .unclosedInstruction)
  count Metrics.countInstruction
  return .skipped

/-- Reads what stands behind a `<`.  The element around it is `enclosing`, at the given depth. -/
def markup (converter : Converter) (enclosing : Option String) (depth : Nat) : Step Piece := do
  let token ← scan Scan.nextToken
  if token.isThe .bang then declaration converter
  else if token.isThe .question then processingInstruction
  else if token.isThe .slash then closingTag enclosing
  else if token.isIdentifier then openingTag converter depth token
  else fault .misshapenTag

/-- Reads the next piece of the element `tag`, which stands at the given depth. -/
def content (converter : Converter) (tag : String) (depth : Nat) : Step Piece := do
  match ← scan Scan.nextContent with
  | none => fault (.unclosedElement tag)
  | some token =>
      if token.kind == .text then textPiece converter token.value
      else markup converter (some tag) depth

section Forward

theorem forward_markupSort : Forward Cursor.remaining Scan.markupSort := by
  intro cursor sort stop h
  simp only [Scan.markupSort] at h
  split at h <;> (obtain ⟨-, rfl⟩ := by simpa using h) <;> simp

theorem forward_cdataBracket : Forward Cursor.remaining Scan.cdataBracket := by
  intro cursor found stop h
  simp only [Scan.cdataBracket] at h
  split at h
  · next after hnext =>
      obtain rfl := by simpa using h
      have hle := Cursor.remaining_next cursor
      rw [hnext] at hle
      simp only at hle
      omega
  · simp [Scan.fail] at h

theorem forward_declarationEnd (nesting : Nat) :
    Forward Cursor.remaining (Scan.declarationEnd nesting) := by
  intro cursor found stop h
  fun_induction Scan.declarationEnd nesting cursor with
  | case1 => simp at h
  | case2 nesting cursor token between shorter _ _ ih => exact Nat.le_trans (ih h) (by omega)
  | case3 cursor token between shorter =>
      obtain rfl := by simpa using h
      omega
  | case4 cursor token between shorter _ _ _ outer ih => exact Nat.le_trans (ih h) (by omega)
  | case5 nesting cursor token between shorter _ _ _ ih => exact Nat.le_trans (ih h) (by omega)

theorem forward_textPiece (converter : Converter) (text : String) :
    Forward ConversionState.remaining (textPiece converter text) := by
  unfold textPiece
  split
  · exact .pure _
  · exact (forward_scalar _ _).bind fun _ => .pure _

theorem forward_cdataSection (converter : Converter) :
    Forward ConversionState.remaining (cdataSection converter) :=
  strictlyForward_token.forward.bind fun _ => (forward_require _ _).bind fun _ =>
    (forward_scan forward_cdataBracket).bind fun _ =>
      (forward_scan Scan.forward_cdataText).bind fun _ => (forward_count _).bind fun _ =>
        forward_textPiece _ _

theorem forward_declaration (converter : Converter) :
    Forward ConversionState.remaining (declaration converter) := by
  refine (forward_scan forward_markupSort).bind fun sort => ?_
  cases sort with
  | comment =>
      exact (forward_scan (Scan.forward_skipPast _ _)).bind fun _ =>
        (forward_count _).bind fun _ => .pure _
  | bracketed => exact forward_cdataSection converter
  | declaration =>
      exact (forward_scan (forward_declarationEnd 0)).bind fun _ =>
        (forward_count _).bind fun _ => (forward_log _).bind fun _ => .pure _

theorem forward_processingInstruction :
    Forward ConversionState.remaining processingInstruction :=
  (forward_scan (Scan.forward_skipPast _ _)).bind fun _ => (forward_count _).bind fun _ => .pure _

theorem forward_closingTag (enclosing : Option String) :
    Forward ConversionState.remaining (closingTag enclosing) := by
  refine strictlyForward_token.forward.bind fun name => ?_
  cases enclosing with
  | none => exact (strictlyForward_fault _).forward
  | some tag =>
      exact (forward_require _ _).bind fun _ => strictlyForward_token.forward.bind fun _ =>
        (forward_require _ _).bind fun _ => .pure _

theorem forward_openingTag (converter : Converter) (depth : Nat) (name : Token) :
    Forward ConversionState.remaining (openingTag converter depth name) := by
  unfold openingTag
  dsimp only
  split
  · exact ( StrictlyForward.throw _).forward
  · split
    · intro before value after h
      obtain ⟨state, between, hget, hthrow⟩ := ok_of_bind h
      change EStateM.Result.error _ between = _ at hthrow
      cases hthrow
    · refine (forward_count _).bind fun _ => strictlyForward_token.forward.bind fun first =>
        (forward_attributes _ _ _).bind fun found => ?_
      rcases found with ⟨object, - | -⟩ <;> exact .pure _

/-- Reading markup reads at least one character. -/
theorem strictlyForward_markup (converter : Converter) (enclosing : Option String) (depth : Nat) :
    StrictlyForward ConversionState.remaining (markup converter enclosing depth) := by
  refine strictlyForward_token.bind fun token => ?_
  split
  · exact forward_declaration converter
  · split
    · exact forward_processingInstruction
    · split
      · exact forward_closingTag enclosing
      · split
        · exact forward_openingTag converter depth token
        · exact (strictlyForward_fault _).forward

/-- Reading a piece of an element reads at least one character. -/
theorem strictlyForward_content (converter : Converter) (tag : String) (depth : Nat) :
    StrictlyForward ConversionState.remaining (content converter tag depth) := by
  intro before piece after h
  obtain ⟨token?, between, hscan, hpiece⟩ := ok_of_bind h
  cases token? with
  | none => exact absurd hpiece (by simp [fault, scan, Scan.fail])
  | some token =>
      have hlt : between.remaining < before.remaining := by
        obtain ⟨stop, hstop, rfl⟩ := ok_of_scan hscan
        exact Scan.remaining_nextContent hstop
      dsimp only at hpiece
      split at hpiece
      · exact Nat.lt_of_le_of_lt (forward_textPiece _ _ hpiece) hlt
      · exact Nat.lt_trans (strictlyForward_markup _ _ _ hpiece) hlt

end Forward

end XmlToJson
