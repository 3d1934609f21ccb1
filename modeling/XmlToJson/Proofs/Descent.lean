import XmlToJson.Proofs.Machine

/-!
# The recursion and the machine agree

The conversion recurses into each element; the machine holds the open elements on a stack and reads
one event after the other.  This file shows that they do the same, so that everything can be proved
about events (`convert_eq_convertWithStack`, `convert_outcome`).

## Strategy

* **Pieces as events.**  The recursion reads the pieces of a document with the scans that the events
  are read with, but mixes reading with what it makes of a piece.  `markup_eq` and `content_eq` pull
  the two apart: a piece is an event that is read first, and `react` is what the recursion makes of
  it.
* **States.**  `machineAt` puts the state of the recursion, in the middle of a document, into a
  machine: the objects that the recursion is gathering lie on the stack of the machine.  Each
  function of the recursion is shown to leave the machine where it goes on.
  - In a tag the recursion may have read one token ahead.  It makes no difference to the machine
    whether it has (`run_ahead`), so an attribute is one step (`run_attribute`), the end of a tag is
    another (`run_tagEnd`), and `run_attributes` is the induction on the attributes.
  - Behind a piece the machine goes on with `resume`, which `resume_react` compares with the
    recursion, one case for each sort of event (`run_piece`).
  - `run_elementWithin` is the induction on the room that is left: an element is built on top of the
    stack and folded into what is below it, and `run_document` is the induction on the text.

The record that a conversion ends with is the same for both (`conclude`), and a document that is too
long is refused by both before anything is read (`convert_tooLong`).
-/

namespace XmlToJson

open Step

/-! ## The pieces of a document as events -/

namespace Step

variable {α β : Type}

@[simp] theorem scan_pure (value : α) : scan (pure value) = pure value := rfl

@[simp] theorem scan_bind (reading : Scan α) (next : α → Scan β) :
    scan (reading >>= next) = scan reading >>= fun value => scan (next value) := by
  funext state
  change scan (EStateM.bind reading next) state = EStateM.bind _ _ state
  simp only [scan, EStateM.bind]
  cases reading state.cursor <;> rfl

@[simp] theorem scan_map (change : α → β) (reading : Scan α) :
    scan (change <$> reading) = change <$> scan reading := by
  rw [← bind_pure_comp, ← bind_pure_comp, scan_bind]
  rfl

@[simp] theorem scan_demand (condition : Bool) (problem : MarkupFault) :
    scan (Scan.demand condition problem) = require condition problem := by
  unfold Scan.demand require
  split <;> rfl

@[simp] theorem scan_refuse (problem : MarkupFault) :
    scan (Scan.refuse problem : Scan α) = fault problem := rfl

@[simp] theorem fault_bind (problem : MarkupFault) (next : α → Step β) :
    fault problem >>= next = fault problem := rfl

theorem scan_skipPast (literal : String) (problem : MarkupFault) :
    scan (Scan.skipPast literal problem) =
      scan (Scan.textUntil literal problem) >>= fun _ => pure () := by
  funext state
  change _ = EStateM.bind _ _ state
  simp only [scan, EStateM.bind, Scan.skipPast, Scan.textUntil, Cursor.skipPast]
  cases Text.indexOf? literal.toList state.cursor.rest <;> rfl

end Step

/-- What the recursion makes of an event at the given depth. -/
def react (converter : Converter) (depth : Nat) (reading : Reading) : Step Piece :=
  match reading.event with
  | .opened tag => openingTag converter depth ⟨.name, tag, reading.start⟩
  | .closed _ => return .closed
  | .text text => textPiece converter text
  | .cdata text => do
      count Metrics.countCdata
      textPiece converter text
  | .comment _ => do
      count Metrics.countComment
      return .skipped
  | .instruction _ => do
      count Metrics.countInstruction
      return .skipped
  | .declaration => do
      count Metrics.countDeclaration
      Step.log (converter.logger.record .debug "Skipped markup declaration" [])
      return .skipped
  | _ => return .skipped

theorem declaration_eq (converter : Converter) (depth : Nat) (start : Position) :
    declaration converter =
      scan Scan.exclamation >>= fun event => react converter depth ⟨event, start, none⟩ := by
  simp only [declaration, Scan.exclamation, scan_bind, bind_assoc]
  congr 1
  funext sort
  cases sort with
  | comment => simp [scan_skipPast, react]
  | bracketed => simp [cdataSection, react]
  | declaration =>
      have hbind := scan_bind (Scan.declarationEnd 0) fun _ => pure Event.declaration
      simp only [hbind, bind_assoc, scan_pure, pure_bind, react]

theorem closingTag_eq (converter : Converter) (enclosing : Option String) (depth : Nat)
    (start : Position) :
    closingTag enclosing =
      scan (Scan.closeTag enclosing) >>= fun event =>
        react converter depth ⟨event, start, none⟩ := by
  simp only [closingTag, Scan.closeTag, scan_bind, bind_assoc]
  congr 1
  funext name
  cases enclosing with
  | none => simp
  | some tag => simp [react]

theorem processingInstruction_eq (converter : Converter) (depth : Nat) (start : Position) :
    processingInstruction =
      scan (Event.instruction <$> Scan.textUntil "?>" .unclosedInstruction) >>= fun event =>
        react converter depth ⟨event, start, none⟩ := by
  simp [processingInstruction, scan_skipPast, react]

theorem markup_eq (converter : Converter) (enclosing : Option String) (depth : Nat) :
    markup converter enclosing depth =
      scan (Scan.markupReading enclosing) >>= react converter depth := by
  simp only [markup, Scan.markupReading, scan_bind, bind_assoc, scan_pure, pure_bind]
  congr 1
  funext token
  unfold Scan.markupEvent
  split
  · exact declaration_eq converter depth token.position
  · split
    · exact processingInstruction_eq converter depth token.position
    · split
      · exact closingTag_eq converter enclosing depth token.position
      · split
        · rfl
        · rfl

theorem content_eq (converter : Converter) (tag : String) (depth : Nat) :
    content converter tag depth = scan (Scan.contentReading tag) >>= react converter depth := by
  simp only [content, Scan.contentReading, scan_bind, bind_assoc]
  congr 1
  funext token?
  cases token? with
  | none => simp
  | some token =>
      dsimp only
      split
      · simp [react]
      · exact markup_eq converter (some tag) depth

/-! ## Steps on a state -/

section Apply

variable {ε σ α β : Type}

theorem bind_apply (step : EStateM ε σ α) (next : α → EStateM ε σ β) (state : σ) :
    (step >>= next) state =
      match step state with
      | .ok value after => next value after
      | .error failure after => .error failure after := by
  change EStateM.bind step next state = _
  unfold EStateM.bind
  cases step state <;> rfl

theorem map_apply (change : α → β) (step : EStateM ε σ α) (state : σ) :
    (change <$> step) state =
      match step state with
      | .ok value after => .ok (change value) after
      | .error failure after => .error failure after := by
  rw [← bind_pure_comp, bind_apply]
  rfl

theorem scan_apply (reading : Scan α) (state : ConversionState) :
    scan reading state =
      match reading state.cursor with
      | .ok value cursor => .ok value { state with cursor := cursor }
      | .error error cursor =>
          .error (.refused (.malformed error)) { state with cursor := cursor } := rfl

theorem demand_apply (condition : Bool) (problem : MarkupFault) (cursor : Cursor) :
    Scan.demand condition problem cursor =
      if condition then .ok () cursor else .error ⟨problem, some cursor.position⟩ cursor := by
  unfold Scan.demand
  split <;> rfl

theorem count_apply (change : Metrics → Metrics) (state : ConversionState) :
    count change state = .ok () { state with metrics := change state.metrics } := rfl

theorem scalar_apply (converter : Converter) (text : String) (state : ConversionState) :
    scalar converter text state =
      match converter.scalar? text with
      | .ok value => .ok value state
      | .error failure => .error failure state := by
  unfold scalar Converter.scalar?
  split
  · rfl
  · cases Scalar.ofText text with
    | ok value => rfl
    | error problem => cases problem; rfl

end Apply

/-! ## Attributes -/

/-- The machine in a state of the recursion. -/
def machineAt (root : Object) (stack : List (String × Object)) (tag : Option (String × Object))
    (pending : Option Token) (state : ConversionState) : Machine :=
  ⟨state.cursor, ⟨root, stack, tag, state.metrics, state.log⟩, pending⟩

/-- Adds a value to the innermost open element of a machine, or to its root. -/
def Machine.contribute (machine : Machine) (key : String) (value : Value) : Machine :=
  { machine with builder := machine.builder.contribute key value }

variable {converter : Converter} {ceiling : Option Nat} {root : Object}
  {stack : List (String × Object)}

theorem run_without_token (builder : Builder) {frame : String × Object}
    (htag : builder.tag = some frame) {error : MarkupError} {cursor behind : Cursor}
    (htoken : Scan.nextToken cursor = .error error behind) :
    Machine.run converter ceiling ⟨cursor, builder, none⟩ =
      ⟨.error (.refused (.malformed error)), builder.log⟩ := by
  have hread : nextReading (Machine.reader ⟨cursor, builder, none⟩).place cursor =
      .error error behind := by
    simp only [Machine.reader, Reader.place, Builder.nest, htag, Option.map_some, Nest.place_tag,
      nextReading, bind_apply, htoken]
  exact Machine.run_of_error hread

/-- It does not matter whether the next token of a tag has been read ahead. -/
theorem run_ahead {builder : Builder} {frame : String × Object} (htag : builder.tag = some frame)
    {token : Token} {cursor behind : Cursor} (htoken : Scan.nextToken cursor = .ok token behind) :
    Machine.run converter ceiling ⟨cursor, builder, none⟩ =
      Machine.run converter ceiling ⟨behind, builder, some token⟩ := by
  -- Both machines meet the same reading, whatever comes of it.
  have hplace : ∀ cursor pending,
      (Machine.reader ⟨cursor, builder, pending⟩).place = .tag pending := by
    intro cursor pending
    simp [Machine.reader, Reader.place, Builder.nest, htag]
  have hread : nextReading (Machine.reader ⟨cursor, builder, none⟩).place cursor =
      nextReading (Machine.reader ⟨behind, builder, some token⟩).place behind := by
    rw [hplace, hplace]
    simp only [nextReading, bind_apply, htoken]
  cases hnext : nextReading (Machine.reader ⟨behind, builder, some token⟩).place behind with
  | error error stop =>
      rw [Machine.run_of_error hnext, Machine.run_of_error (hread.trans hnext)]
  | ok reading? stop =>
      cases reading? with
      | none => rw [Machine.run_of_end hnext, Machine.run_of_end (hread.trans hnext)]
      | some reading =>
          cases hafter :
              Machine.after converter ceiling ⟨behind, builder, some token⟩ reading stop with
          | error failure =>
              rw [Machine.run_of_refusal hnext hafter,
                Machine.run_of_refusal (hread.trans hnext) hafter]
          | ok next =>
              rw [Machine.run_of_step hnext hafter, Machine.run_of_step (hread.trans hnext) hafter]

/-- What the recursion makes of an attribute. -/
def attributeOf (converter : Converter) (reading : Reading) : Step (Value × Token) :=
  match reading.event with
  | .attr _ value => do
      let value ← value.elim (pure (.string "")) (scalar converter)
      count Metrics.countAttribute
      let next ← reading.pending.elim (scan Scan.nextToken) pure
      return (value, next)
  | _ => fault .misshapenTag

theorem attributeRest_eq {token : Token} (hname : token.isIdentifier = true) :
    attributeRest converter = scan (Scan.tagReading token) >>= attributeOf converter := by
  simp only [attributeRest, Scan.tagReading, hname, if_true, scan_bind, bind_assoc]
  congr 1
  funext second
  split <;> simp [attributeOf]

theorem attributeValue_apply (value : Option String) (state : ConversionState) :
    (value.elim (pure (.string "")) (scalar converter) : Step Value) state =
      match (value.elim (.ok (.string "")) converter.scalar? : Except Failure Value) with
      | .ok value => .ok value state
      | .error failure => .error failure state := by
  cases value with
  | none => rfl
  | some text => exact scalar_apply converter text state

theorem nextReading_tag (root : Object) (stack : List (String × Object)) (frame : String × Object)
    (token : Token) (state : ConversionState) :
    nextReading (machineAt root stack (some frame) (some token) state).reader.place state.cursor =
      match Scan.tagReading token state.cursor with
      | .ok reading cursor => .ok (some reading) cursor
      | .error error cursor => .error error cursor := by
  change (some <$> Scan.tagReading token) state.cursor = _
  rw [map_apply]
  cases Scan.tagReading token state.cursor <;> rfl

theorem run_attribute {tag : String} {object : Object} {token : Token} {state : ConversionState}
    (hname : token.isIdentifier = true) :
    (machineAt root stack (some (tag, object)) (some token) state).run converter ceiling =
      match attributeRest converter state with
      | .error failure after => ⟨.error failure, after.log⟩
      | .ok (value, next) after =>
          (machineAt root stack (some (tag, object.append token.value value)) (some next) after).run
            converter ceiling := by
  rw [attributeRest_eq hname, bind_apply, scan_apply]
  cases hread : Scan.tagReading token state.cursor with
  | error error cursor =>
      exact Machine.run_of_error ((nextReading_tag ..).trans (by rw [hread]))
  | ok reading cursor =>
      obtain ⟨value, pending, rfl⟩ : ∃ value pending,
          reading = ⟨.attr token.value value, token.position, pending⟩ := by
        rcases Scan.ok_of_attribute hname hread with ⟨value, rfl, -⟩ | ⟨second, rfl, -⟩
        · exact ⟨some value, none, rfl⟩
        · exact ⟨none, some second, rfl⟩
      have hnext := (nextReading_tag root stack (tag, object) token state).trans
        (by rw [hread])
      simp only [attributeOf, bind_apply, attributeValue_apply, count_apply]
      cases hvalue : (value.elim (.ok (.string "")) converter.scalar? : Except Failure Value) with
      | error failure =>
          refine Machine.run_of_refusal hnext ?_
          simp [Machine.after, Builder.apply, Builder.addAttribute, machineAt, hvalue, Except.map]
      | ok found =>
          have hafter :
              (machineAt root stack (some (tag, object)) (some token) state).after converter ceiling
                ⟨.attr token.value value, token.position, pending⟩ cursor =
              .ok (machineAt root stack (some (tag, object.append token.value found)) pending
                { state with cursor := cursor, metrics := state.metrics.countAttribute }) := by
            simp [Machine.after, Builder.apply, Builder.addAttribute, machineAt, hvalue, Except.map]
          rw [Machine.run_of_step hnext hafter]
          -- Without a value the next token is there; with one the recursion reads it at once and
          -- the machine does so later.
          cases pending with
          | some next => rfl
          | none =>
              cases htoken : Scan.nextToken cursor with
              | error error behind =>
                  simp only [Option.elim_none, scan_apply, htoken]
                  exact run_without_token _ rfl htoken
              | ok next behind =>
                  simp only [Option.elim_none, scan_apply, htoken]
                  exact run_ahead rfl htoken

/-- How a tag ends. -/
def endOf (reading : Reading) : TagEnd :=
  match reading.event with
  | .selfClosed => .selfClosing
  | _ => .content

theorem tagEnd_eq {token : Token} (hname : ¬ token.isIdentifier = true) :
    tagEnd token = endOf <$> scan (Scan.tagReading token) := by
  rw [Scan.tagReading, if_neg hname, tagEnd]
  split
  · simp [endOf]
  · simp [endOf]

theorem run_tagEnd {tag : String} {object : Object} {token : Token} {state : ConversionState}
    (hname : ¬ token.isIdentifier = true) :
    (machineAt root stack (some (tag, object)) (some token) state).run converter ceiling =
      match tagEnd token state with
      | .error failure after => ⟨.error failure, after.log⟩
      | .ok .content after =>
          (machineAt root ((tag, object) :: stack) none none after).run converter ceiling
      | .ok .selfClosing after =>
          ((machineAt root stack none none after).contribute tag object.foldSelfClosing).run
            converter ceiling := by
  rw [tagEnd_eq hname, map_apply, scan_apply]
  cases hread : Scan.tagReading token state.cursor with
  | error error cursor =>
      exact Machine.run_of_error ((nextReading_tag ..).trans (by rw [hread]))
  | ok reading cursor =>
      have hnext := (nextReading_tag root stack (tag, object) token state).trans
        (by rw [hread])
      obtain ⟨rfl | rfl, -⟩ := Scan.ok_of_tagEnd hname hread
      · exact Machine.run_of_step hnext rfl
      · exact Machine.run_of_step hnext rfl

theorem run_attributes {tag : String} {object : Object} {token : Token} {state : ConversionState} :
    (machineAt root stack (some (tag, object)) (some token) state).run converter ceiling =
      match attributes converter object token state with
      | .error failure after => ⟨.error failure, after.log⟩
      | .ok (found, .content) after =>
          (machineAt root ((tag, found) :: stack) none none after).run converter ceiling
      | .ok (found, .selfClosing) after =>
          ((machineAt root stack none none after).contribute tag found.foldSelfClosing).run
            converter ceiling := by
  fun_induction attributes converter object token state with
  | case1 object token state hname failure after hrest =>
      rw [run_attribute hname, ← Onward.toResult_run _ (strictlyForward_attributeRest converter),
        hrest]
      rfl
  | case2 object token state hname value next after shorter hrest ih =>
      rw [run_attribute hname, ← Onward.toResult_run _ (strictlyForward_attributeRest converter),
        hrest]
      exact ih
  | case3 object token state hname failure after hend => rw [run_tagEnd hname, hend]
  | case4 object token state hname ending after hend =>
      rw [run_tagEnd hname, hend]
      cases ending <;> rfl

/-! ## Pieces -/

/-- How the machine goes on behind a piece of an element or of the document. -/
def resume (converter : Converter) (ceiling : Option Nat) (root : Object)
    (stack : List (String × Object)) : EStateM.Result Failure ConversionState Piece → Built
  | .error failure after => ⟨.error failure, after.log⟩
  | .ok .skipped after => (machineAt root stack none none after).run converter ceiling
  | .ok (.contribution key value) after =>
      ((machineAt root stack none none after).contribute key value).run converter ceiling
  | .ok (.opened tag object) after =>
      (machineAt root ((tag, object) :: stack) none none after).run converter ceiling
  | .ok .closed after =>
      let machine := machineAt root stack none none after
      Machine.run converter ceiling { machine with builder := machine.builder.close }

theorem resume_attributes {tag : String} {state : ConversionState} :
    resume converter ceiling root stack
        ((do
          let first ← scan Scan.nextToken
          let (object, ending) ← attributes converter .empty first
          match ending with
          | .selfClosing => return .contribution tag object.foldSelfClosing
          | .content => return .opened tag object : Step Piece) state) =
      (machineAt root stack (some (tag, .empty)) none state).run converter ceiling := by
  rw [bind_apply, scan_apply]
  cases htoken : Scan.nextToken state.cursor with
  | error error behind =>
      let machine := machineAt root stack (some (tag, .empty)) none state
      exact (run_without_token machine.builder rfl htoken).symm
  | ok first behind =>
      have hahead : (machineAt root stack (some (tag, .empty)) none state).run converter ceiling =
          (machineAt root stack (some (tag, .empty)) (some first)
            { state with cursor := behind }).run converter ceiling :=
        run_ahead rfl htoken
      rw [hahead, run_attributes]
      refine (congrArg (resume converter ceiling root stack)
        (bind_apply (attributes converter .empty first) _ _)).trans ?_
      cases attributes converter .empty first { state with cursor := behind } with
      | error failure after => rfl
      | ok found after =>
          obtain ⟨object, ending⟩ := found
          cases ending <;> rfl

theorem resume_openingTag {tag : String} {start : Position} {state : ConversionState} :
    resume converter converter.ceiling root stack
        (openingTag converter stack.length ⟨.name, tag, start⟩ state) =
      match (machineAt root stack none none state).builder.openElement converter
          converter.ceiling tag start state.cursor.position with
      | .error failure => ⟨.error failure, state.log⟩
      | .ok builder =>
          Machine.run converter converter.ceiling ⟨state.cursor, builder, none⟩ := by
  let name : Token := ⟨.name, tag, start⟩
  let builder := (machineAt root stack none none state).builder
  -- The two checks of the depth come in the same order on both sides.
  by_cases hlimit : converter.settings.maxNestingDepth.isBelow (stack.length + 1)
  -- Too deep for the settings.
  · have hopening : openingTag converter stack.length name = throw (.refused
        (.tooDeep converter.settings.maxNestingDepth (some tag) (some start))) := if_pos hlimit
    have hbuilder : builder.openElement converter converter.ceiling tag start
        state.cursor.position = .error (.refused
          (.tooDeep converter.settings.maxNestingDepth (some tag) (some start))) := if_pos hlimit
    rw [hopening, hbuilder]
    rfl
  · by_cases hceiling : converter.host.elementLevels ≤ stack.length
    -- Too deep for the recursion.
    · have hopening : openingTag converter stack.length name = (do
          let state ← get
          throw (.refused (.tooDeep (.integer state.metrics.depth) none
            (some state.cursor.position)))) := (if_neg hlimit).trans (if_pos hceiling)
      have hany : converter.ceiling.any (· < stack.length + 1) = true := by
        simpa using Nat.lt_succ_of_le hceiling
      have hbuilder : builder.openElement converter converter.ceiling tag start
          state.cursor.position = .error (.refused (.tooDeep (.integer state.metrics.depth) none
            (some state.cursor.position))) := (if_neg hlimit).trans (if_pos hany)
      rw [hopening, hbuilder]
      rfl
    · have hany : ¬ converter.ceiling.any (· < stack.length + 1) = true := by
        simp only [Option.any_some, decide_eq_true_eq]
        omega
      have hbuilder : builder.openElement converter converter.ceiling tag start
          state.cursor.position = .ok { builder with
            tag := some (tag, .empty)
            metrics := builder.metrics.countElement (stack.length + 1) } :=
        (if_neg hlimit).trans (if_neg hany)
      rw [hbuilder, openingTag, if_neg hlimit, if_neg hceiling, bind_apply, count_apply]
      exact resume_attributes

theorem resume_textPiece (text : String) (state : ConversionState) :
    resume converter ceiling root stack (textPiece converter text state) =
      match (machineAt root stack none none state).builder.contributeText converter text with
      | .error failure => ⟨.error failure, state.log⟩
      | .ok builder => Machine.run converter ceiling ⟨state.cursor, builder, none⟩ := by
  unfold textPiece Builder.contributeText
  split
  · rfl
  · rw [bind_apply, scalar_apply]
    cases converter.scalar? text <;> rfl

/-- What the recursion makes of an event is what the machine does. -/
theorem resume_react {reading : Reading} {state : ConversionState}
    (hpending : reading.pending = none) :
    resume converter converter.ceiling root stack
        (react converter stack.length reading state) =
      match (machineAt root stack none none state).builder.apply converter converter.ceiling
          ⟨reading.event, reading.start, state.cursor.position⟩ with
      | .error failure => ⟨.error failure, state.log⟩
      | .ok builder =>
          Machine.run converter converter.ceiling ⟨state.cursor, builder, reading.pending⟩ := by
  obtain ⟨event, start, pending⟩ := reading
  dsimp only at hpending
  subst hpending
  cases event with
  | opened tag => exact resume_openingTag
  | text text => exact resume_textPiece text state
  | cdata text => exact resume_textPiece text { state with metrics := state.metrics.countCdata }
  | attr | entered | selfClosed | comment | instruction | declaration | closed => rfl

theorem run_piece {reading : Scan Reading} {state : ConversionState} (start : Cursor)
    (hplace : nextReading (machineAt root stack none none state).reader.place state.cursor =
      (some <$> reading) start)
    (hpending : ∀ {found stop}, reading start = .ok found stop → found.pending = none) :
    (machineAt root stack none none state).run converter converter.ceiling =
      resume converter converter.ceiling root stack
        ((scan reading >>= react converter stack.length) { state with cursor := start }) := by
  have hnext := hplace.trans (map_apply some reading start)
  rw [bind_apply, scan_apply]
  cases hread : reading start with
  | error error cursor =>
      rw [hread] at hnext
      exact Machine.run_of_error hnext
  | ok found cursor =>
      rw [hread] at hnext
      dsimp only
      rw [resume_react (hpending hread)]
      dsimp only
      cases happly : (machineAt root stack none none { state with cursor := cursor }).builder.apply
          converter converter.ceiling ⟨found.event, found.start, cursor.position⟩ with
      | error failure => exact Machine.run_of_refusal hnext (congrArg (Except.map _) happly)
      | ok builder => exact Machine.run_of_step hnext (congrArg (Except.map _) happly)

/-! ## Elements and documents -/

theorem run_content {tag : String} {object : Object} {outer : List (String × Object)}
    {state : ConversionState} :
    (machineAt root ((tag, object) :: outer) none none state).run converter converter.ceiling =
      resume converter converter.ceiling root ((tag, object) :: outer)
        (content converter tag (outer.length + 1) state) := by
  rw [content_eq]
  exact run_piece state.cursor rfl fun h => Scan.pending_contentReading h

theorem run_markup {state opened : ConversionState} {hshorter : opened.remaining < state.remaining}
    (hless : state.pastLess? = some ⟨opened, hshorter⟩) :
    (machineAt root [] none none state).run converter converter.ceiling =
      resume converter converter.ceiling root [] (markup converter none 0 opened) := by
  unfold ConversionState.pastLess? at hless
  split at hless
  · simp at hless
  · next index hindex =>
      obtain rfl := congrArg Subtype.val (Option.some.inj hless)
      rw [markup_eq]
      refine run_piece (state.cursor.skip (index + 1)) ?_ fun h =>
        Scan.pending_markupReading h
      change nextReading .document state.cursor = _
      simp only [nextReading, hindex]

/-- An element is built on top of the stack and folded into what is below it. -/
theorem run_elementWithin {tag : String} {depth : Nat} {object : Object} {bound : Nat}
    {state : ConversionState} (inside : state.remaining ≤ bound)
    {outer : List (String × Object)} (hdepth : depth = outer.length + 1) :
    (machineAt root ((tag, object) :: outer) none none state).run converter converter.ceiling =
      match (elementWithin converter tag depth object bound state inside).toResult with
      | .error failure after => ⟨.error failure, after.log⟩
      | .ok found after =>
          ((machineAt root outer none none after).contribute tag found.fold).run converter
            converter.ceiling := by
  -- Every case begins with one piece of the content; `depth` is the height of the stack.
  have hcontent : ∀ {tag : String} {object : Object} {outer : List (String × Object)}
      {state : ConversionState} {outcome},
      Onward.run (content converter tag (outer.length + 1))
        (strictlyForward_content converter tag (outer.length + 1)) state = outcome →
      (machineAt root ((tag, object) :: outer) none none state).run converter
          converter.ceiling =
        resume converter converter.ceiling root ((tag, object) :: outer) outcome.toResult := by
    rintro tag object outer state outcome rfl
    rw [run_content, Onward.toResult_run]
  fun_induction elementWithin converter tag depth object bound state inside generalizing outer with
  | case1 tag depth object bound state inside failure after hrun =>
      subst hdepth
      rw [hcontent hrun]
      rfl
  | case2 tag depth object bound state inside after shorter hrun =>
      subst hdepth
      rw [hcontent hrun]
      rfl
  | case3 tag depth object bound state inside after shorter hrun ih =>
      subst hdepth
      rw [hcontent hrun]
      exact ih rfl
  | case4 tag depth object bound state inside key value after shorter hrun ih =>
      subst hdepth
      rw [hcontent hrun]
      exact ih rfl
  | case5 tag depth object bound state inside child attributes after shorter hrun failure behind
      hinner ih =>
      subst hdepth
      rw [hcontent hrun]
      show (machineAt root ((child, attributes) :: (tag, object) :: outer) none none after).run
        converter converter.ceiling = _
      rw [ih rfl, hinner]
      rfl
  | case6 tag depth object bound state inside child attributes after shorter hrun inner behind
      further hinner ih ihbehind =>
      subst hdepth
      rw [hcontent hrun]
      show (machineAt root ((child, attributes) :: (tag, object) :: outer) none none after).run
        converter converter.ceiling = _
      -- First the child on top of the stack, then what follows it in the element.
      rw [ih rfl, hinner]
      exact ihbehind rfl

theorem run_element {tag : String} {object : Object} {state : ConversionState} :
    (machineAt root [(tag, object)] none none state).run converter converter.ceiling =
      match (element converter tag 1 object state).toResult with
      | .error failure after => ⟨.error failure, after.log⟩
      | .ok found after =>
          ((machineAt root [] none none after).contribute tag found.fold).run converter
            converter.ceiling :=
  run_elementWithin (Nat.le_refl _) rfl

/-- The recursion and the machine come to the same end. -/
theorem run_document (root : Object) (state : ConversionState) :
    (machineAt root [] none none state).run converter converter.ceiling =
      match document converter root state with
      | .error failure after => ⟨.error failure, after.log⟩
      | .ok data after => ⟨.ok (data, after.metrics), after.log⟩ := by
  -- Every case but the first begins with one piece of markup.
  have hmarkup : ∀ {root : Object} {state opened : ConversionState}
      {hshorter : opened.remaining < state.remaining} {outcome},
      state.pastLess? = some ⟨opened, hshorter⟩ →
      Onward.run (markup converter none 0) (strictlyForward_markup converter none 0) opened =
        outcome →
      (machineAt root [] none none state).run converter converter.ceiling =
        resume converter converter.ceiling root [] outcome.toResult := by
    rintro root state opened hshorter outcome hless rfl
    rw [run_markup hless, Onward.toResult_run]
  fun_induction document converter root state with
  | case1 root state hless =>
      have hend : nextReading .document state.cursor = .ok none state.cursor.skipAll := by
        unfold ConversionState.pastLess? at hless
        split at hless
        · next hindex => simp only [nextReading, hindex]
        · simp at hless
      exact Machine.run_of_end hend
  | case2 root state opened shorter hless failure after hrun =>
      rw [hmarkup hless hrun]
      rfl
  | case3 root state opened shorter hless after further hrun ih =>
      rw [hmarkup hless hrun]
      exact ih
  | case4 root state opened shorter hless after further hrun ih =>
      rw [hmarkup hless hrun]
      exact ih
  | case5 root state opened shorter hless key value after further hrun ih =>
      rw [hmarkup hless hrun]
      exact ih
  | case6 root state opened shorter hless tag attributes after further hrun failure behind hinner =>
      rw [hmarkup hless hrun]
      refine run_element.trans ?_
      rw [hinner]
      rfl
  | case7 root state opened shorter hless tag attributes after further hrun inner behind shortest
      hinner ih =>
      rw [hmarkup hless hrun]
      refine run_element.trans ?_
      rw [hinner]
      exact ih

/-! ## Conversions -/

namespace Converter

/-- The machine before the first character of a text. -/
def machine (converter : Converter) (text : String) : Machine where
  cursor := .ofText text
  builder :=
    { root := .empty
      metrics := { characters := text.length }
      log := [converter.startedRecord text.length] }

/-- The result of a conversion, with the record of its end. -/
def conclude (converter : Converter) (built : Built) : Logged (Except Failure Conversion) :=
  match built.outcome with
  | .ok (data, metrics) =>
      ⟨.ok ⟨data, metrics, converter.correlationId⟩,
        built.log ++ [converter.completedRecord metrics]⟩
  | .error (.refused error) =>
      ⟨.error (.refused error), built.log ++ [converter.failedRecord error]⟩
  | .error .integerTooLong => ⟨.error .integerTooLong, built.log⟩

/-- Converts a document with the machine. -/
def convertWithStack (converter : Converter) (ceiling : Option Nat) (text : String) :
    Logged (Except Failure Conversion) :=
  match converter.exceededLimit? text with
  | some limit => ⟨.error (.refused (.tooLong text.length limit)), []⟩
  | none => converter.conclude ((converter.machine text).run converter ceiling)

/-- The recursion and the machine convert a document in the same way, if the machine has
the ceiling of the recursion. -/
theorem convert_eq_convertWithStack (text : String) :
    converter.convert text = converter.convertWithStack converter.ceiling text := by
  have hrun : (converter.machine text).run converter converter.ceiling = _ :=
    run_document .empty (converter.initialState text)
  unfold convert convertWithStack
  cases converter.exceededLimit? text with
  | some limit => rfl
  | none =>
      dsimp only
      rw [hrun]
      cases document converter .empty (converter.initialState text) with
      | ok data state => rfl
      | error failure state => cases failure <;> rfl

/-- What is reported of a document that has been built. -/
def conversion (converter : Converter) (built : Object × Metrics) : Conversion :=
  ⟨built.1, built.2, converter.correlationId⟩

theorem outcome_conclude (built : Built) :
    (converter.conclude built).outcome = built.outcome.map converter.conversion := by
  unfold conclude
  split
  · next hbuilt =>
      rw [hbuilt]
      rfl
  · next hbuilt =>
      rw [hbuilt]
      rfl
  · next hbuilt =>
      rw [hbuilt]
      rfl

/-- What comes of a document that is not too long follows from its events. -/
theorem convert_outcome {text : String} (hlength : converter.exceededLimit? text = none) :
    (converter.convert text).outcome =
      ((converter.machine text).builder.follow converter converter.ceiling
        (Trace.ofText text).fault
        (Trace.ofText text).entries).outcome.map converter.conversion := by
  rw [convert_eq_convertWithStack, convertWithStack, hlength]
  dsimp only
  rw [outcome_conclude, Machine.run_eq_follow]
  rfl

/-- A document that is too long is refused. -/
theorem convert_tooLong {text : String} {limit : Number}
    (hlength : converter.exceededLimit? text = some limit) :
    (converter.convert text).outcome = .error (.refused (.tooLong text.length limit)) := by
  unfold convert
  rw [hlength]

/-- An accepted document is not too long, has no fault, and its result follows from its
events. -/
theorem follow_of_convert {text : String} {found : Conversion}
    (h : (converter.convert text).outcome = .ok found) :
    converter.exceededLimit? text = none ∧ (Trace.ofText text).fault = none ∧
      ((converter.machine text).builder.follow converter converter.ceiling none
        (Trace.ofText text).entries).outcome = .ok (found.data, found.metrics) := by
  cases hlength : converter.exceededLimit? text with
  | some limit => simp [convert_tooLong hlength] at h
  | none =>
      rw [convert_outcome hlength] at h
      obtain ⟨⟨data, metrics⟩, hfollow, rfl⟩ := exists_of_map_ok h
      have hfault := Builder.fault_of_follow hfollow
      rw [hfault] at hfollow
      exact ⟨rfl, hfault, hfollow⟩

end Converter

end XmlToJson
