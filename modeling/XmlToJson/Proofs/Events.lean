import XmlToJson.Conversion

/-!
# The events of a document

What a converter meets in a document does not depend on its settings: the same names, attributes,
texts and close tags come in the same order, whatever is made of them.  This file reads a document
as such a sequence of events.  `nextReading` reads one event with the scans of `Markup/Scan.lean`;
which scan is right follows from the `Place`, and the place follows from the events before it
(`Nest`).

* Outside every element the next `<` is looked for, and everything else is skipped.
* In the content of an element the next piece is a text or markup (`contentReading`).
* In a tag each token is an attribute or the end of the tag (`tagReading`).  Whether an attribute
  has a value shows only in the token behind its name, so that token may have been read ahead, and
  the place holds it.

The two facts that everything else rests on:

* `unread_lt`: an event takes away something that was still to be read, where the token behind an
  attribute without a value counts as unread until it is used.  `remaining_tagReading` is the case
  for which this count is made: such an attribute takes at least one character more than the token.
  So reading a whole document ends.
* `fits_of_nextReading`: an event fits its place, so a close tag names the innermost open element
  and an attribute stands in a tag.

Markup that is read begins with a token and is one event (`ok_of_markupReading`), and what a tag
gives is an attribute or its end (`ok_of_attribute`, `ok_of_tagEnd`); these three are how later
files come from an event to what was scanned.
-/

namespace XmlToJson

/-- What reading meets in a document. -/
inductive Event where
  | opened (tag : String)
  /-- An attribute, with its value if it has one. -/
  | attr (name : String) (value : Option String)
  | entered
  /-- The end of a tag that closes itself. -/
  | selfClosed
  /-- A run of text without the blanks around it. -/
  | text (value : String)
  | cdata (value : String)
  | comment (body : String)
  | instruction (body : String)
  | declaration
  | closed (tag : String)
  deriving DecidableEq, Repr

/-- Where reading stands in the tree of a document. -/
inductive Place where
  | document
  | content (tag : String)
  /-- In an opening tag; the token behind an attribute without a value has been
  read already. -/
  | tag (pending : Option Token)

/-- An event as it is read. -/
structure Reading where
  event : Event
  start : Position
  /-- The token behind an attribute without a value. -/
  pending : Option Token := none
  deriving DecidableEq, Repr

/-- An event and the two places around it. -/
structure Entry where
  event : Event
  start : Position
  behind : Position
  deriving DecidableEq, Repr

/-! ## Reading one event -/

namespace Scan

/-- Reads the text up to `literal`, and the literal itself. -/
def textUntil (literal : String) (fault : MarkupFault) : Scan String := fun cursor =>
  match Text.indexOf? literal.toList cursor.rest with
  | some index =>
      .ok (String.ofList (cursor.rest.take index)) (cursor.skip (index + literal.length))
  | none => fail fault cursor.skipAll

def refuse {α : Type} (fault : MarkupFault) : Scan α :=
  fail fault

/-- Stops at a fault unless a condition holds. -/
def demand (condition : Bool) (fault : MarkupFault) : Scan Unit :=
  if condition then pure () else refuse fault

/-- Reads what stands behind an exclamation mark. -/
def exclamation : Scan Event := do
  match ← markupSort with
  | .comment => return .comment (← textUntil "-->" .unclosedComment)
  | .bracketed =>
      let name ← nextToken
      demand (name.isIdentifier && name.value == "CDATA") .notCdata
      cdataBracket
      return .cdata (← cdataText)
  | .declaration =>
      declarationEnd 0
      return .declaration

/-- Reads a close tag behind its slash; it has to close the element `enclosing`. -/
def closeTag (enclosing : Option String) : Scan Event := do
  let name ← nextToken
  match enclosing with
  | none => refuse (.strayCloseTag name.value)
  | some tag =>
      demand (name.isIdentifier && name.value == tag) (.mismatchedCloseTag tag name.value)
      let last ← nextToken
      demand (last.isThe .greater) .misshapenCloseTag
      return .closed name.value

/-- Reads what the first token behind a `<` begins. -/
def markupEvent (enclosing : Option String) (token : Token) : Scan Event :=
  if token.isThe .bang then exclamation
  else if token.isThe .question then Event.instruction <$> textUntil "?>" .unclosedInstruction
  else if token.isThe .slash then closeTag enclosing
  else if token.isIdentifier then pure (.opened token.value)
  else refuse .misshapenTag

/-- Reads what stands behind a `<`, in the element `enclosing`. -/
def markupReading (enclosing : Option String) : Scan Reading := do
  let token ← nextToken
  let event ← markupEvent enclosing token
  return { event := event, start := token.position }

/-- Reads the next piece of the element `tag`. -/
def contentReading (tag : String) : Scan Reading := do
  match ← nextContent with
  | none => refuse (.unclosedElement tag)
  | some token =>
      if token.kind == .text then
        return { event := .text token.value, start := token.position }
      else markupReading (some tag)

/-- Reads what the token of an opening tag begins: an attribute, or the end of
the tag. -/
def tagReading (token : Token) : Scan Reading := do
  if token.isIdentifier then
    let second ← nextToken
    if second.isThe .equals then
      let value ← nextToken
      demand value.isIdentifier .missingValue
      return { event := .attr token.value (some value.value), start := token.position }
    else
      return {
        event := .attr token.value none, start := token.position, pending := some second }
  else if token.isThe .slash then
    let last ← nextToken
    demand (last.isThe .greater) .misshapenTag
    return { event := .selfClosed, start := token.position }
  else
    demand (token.isThe .greater) .misshapenTag
    return { event := .entered, start := token.position }

end Scan

open Scan

/-- Reads the next event, if one comes. -/
def nextReading : Place → Scan (Option Reading)
  | .document => fun cursor =>
      match Text.indexOf? ['<'] cursor.rest with
      | none => .ok none cursor.skipAll
      | some index => (some <$> markupReading none) (cursor.skip (index + 1))
  | .content tag => some <$> contentReading tag
  | .tag none => do
      let token ← nextToken
      some <$> tagReading token
  | .tag (some token) => some <$> tagReading token

/-! ## Places -/

/-- The open elements, the innermost one first, and the tag that is being read. -/
structure Nest where
  openTags : List String
  tag : Option String
  deriving DecidableEq, Repr

namespace Nest

def place (nest : Nest) (pending : Option Token) : Place :=
  match nest.tag, nest.openTags with
  | some _, _ => .tag pending
  | none, tag :: _ => .content tag
  | none, [] => .document

/-- The open elements after an event. -/
def after (nest : Nest) : Event → Nest
  | .opened tag => { nest with tag := some tag }
  | .entered => ⟨nest.tag.toList ++ nest.openTags, none⟩
  | .selfClosed => { nest with tag := none }
  | .closed _ => { nest with openTags := nest.openTags.tail }
  | _ => nest

@[simp] theorem place_tag (tags : List String) (tag : String) (pending : Option Token) :
    place ⟨tags, some tag⟩ pending = .tag pending := rfl

@[simp] theorem place_content (tag : String) (outer : List String) (pending : Option Token) :
    place ⟨tag :: outer, none⟩ pending = .content tag := rfl

@[simp] theorem place_document (pending : Option Token) :
    place ⟨[], none⟩ pending = .document := rfl

end Nest

/-- Whether an event can come at a place. -/
def Event.Fits : Event → Place → Prop
  | .attr .., .tag _ | .entered, .tag _ | .selfClosed, .tag _ => True
  | .text _, .content _ => True
  | .closed found, .content tag => found = tag
  | .opened _, .document | .cdata _, .document | .comment _, .document
  | .instruction _, .document | .declaration, .document => True
  | .opened _, .content _ | .cdata _, .content _ | .comment _, .content _
  | .instruction _, .content _ | .declaration, .content _ => True
  | _, _ => False

/-- What has been read of the text and of the open elements. -/
structure Reader where
  cursor : Cursor
  nest : Nest
  pending : Option Token := none

namespace Reader

/-- The reader before the first character of a text. -/
def ofText (text : String) : Reader where
  cursor := .ofText text
  nest := ⟨[], none⟩

def place (reader : Reader) : Place := reader.nest.place reader.pending

def after (reader : Reader) (reading : Reading) (cursor : Cursor) : Reader where
  cursor := cursor
  nest := reader.nest.after reading.event
  pending := reading.pending

end Reader

/-! ## Reading moves on -/

/-- The number of tokens that have been read ahead. -/
def Place.held : Place → Nat
  | .tag (some _) => 1
  | _ => 0

/-- The number of characters that are left, and the token that was read ahead. -/
def Reader.unread (reader : Reader) : Nat :=
  reader.cursor.remaining + reader.place.held

theorem ok_of_pure {ε σ α : Type} {value found : α} {before after : σ}
    (h : (pure value : EStateM ε σ α) before = .ok found after) :
    value = found ∧ before = after := by
  simpa [pure, EStateM.pure] using h

theorem ok_of_map {ε σ α β : Type} {step : EStateM ε σ α} {change : α → β} {before after : σ}
    {value : β} (h : (change <$> step) before = .ok value after) :
    ∃ found, step before = .ok found after ∧ change found = value := by
  rw [← bind_pure_comp] at h
  obtain ⟨found, between, hstep, hpure⟩ := ok_of_bind h
  obtain ⟨rfl, rfl⟩ := ok_of_pure hpure
  exact ⟨found, hstep, rfl⟩

namespace Scan

variable {cursor stop : Cursor}

theorem forward_refuse {α : Type} (fault : MarkupFault) :
    Forward Cursor.remaining (refuse fault : Scan α) := by
  intro cursor value stop h
  simp [refuse, fail] at h

theorem forward_demand (condition : Bool) (fault : MarkupFault) :
    Forward Cursor.remaining (demand condition fault) := by
  unfold demand
  split
  · exact .pure ()
  · exact forward_refuse fault

theorem ok_of_demand {condition : Bool} {fault : MarkupFault} {value : Unit}
    (h : demand condition fault cursor = .ok value stop) : condition = true ∧ stop = cursor := by
  unfold demand at h
  split at h
  · next hcondition =>
      obtain ⟨-, rfl⟩ := ok_of_pure h
      exact ⟨hcondition, rfl⟩
  · simp [refuse, fail] at h

theorem forward_textUntil (literal : String) (fault : MarkupFault) :
    Forward Cursor.remaining (textUntil literal fault) := by
  intro cursor value stop h
  unfold textUntil at h
  split at h
  · obtain ⟨-, rfl⟩ := by simpa using h
    simp
  · simp [fail] at h

theorem forward_exclamation : Forward Cursor.remaining exclamation := by
  refine forward_markupSort.bind fun sort => ?_
  cases sort with
  | comment => exact (forward_textUntil _ _).bind fun _ => .pure _
  | bracketed =>
      exact strictlyForward_nextToken.forward.bind fun _ => (forward_demand _ _).bind fun _ =>
        forward_cdataBracket.bind fun _ => forward_cdataText.bind fun _ => .pure _
  | declaration => exact (forward_declarationEnd 0).bind fun _ => .pure _

theorem forward_closeTag (enclosing : Option String) :
    Forward Cursor.remaining (closeTag enclosing) := by
  refine strictlyForward_nextToken.forward.bind fun name => ?_
  cases enclosing with
  | none => exact forward_refuse _
  | some tag =>
      exact (forward_demand _ _).bind fun _ => strictlyForward_nextToken.forward.bind fun _ =>
        (forward_demand _ _).bind fun _ => .pure _

theorem forward_markupEvent (enclosing : Option String) (token : Token) :
    Forward Cursor.remaining (markupEvent enclosing token) := by
  unfold markupEvent
  split
  · exact forward_exclamation
  · split
    · intro cursor event stop h
      obtain ⟨body, hbody, -⟩ := ok_of_map h
      exact forward_textUntil _ _ hbody
    · split
      · exact forward_closeTag enclosing
      · split
        · exact .pure _
        · exact forward_refuse _

theorem strictlyForward_markupReading (enclosing : Option String) :
    StrictlyForward Cursor.remaining (markupReading enclosing) :=
  strictlyForward_nextToken.bind fun token =>
    (forward_markupEvent enclosing token).bind fun _ => .pure _

/-- Markup that is read begins with a token and is one event. -/
theorem ok_of_markupReading {enclosing : Option String} {reading : Reading}
    (h : markupReading enclosing cursor = .ok reading stop) :
    ∃ token between event, nextToken cursor = .ok token between ∧
      markupEvent enclosing token between = .ok event stop ∧
      reading = ⟨event, token.position, none⟩ := by
  obtain ⟨token, between, htoken, h⟩ := ok_of_bind h
  obtain ⟨event, further, hevent, h⟩ := ok_of_bind h
  obtain ⟨rfl, rfl⟩ := ok_of_pure h
  exact ⟨token, between, event, htoken, hevent, rfl⟩

/-- The next piece of an element is a text or markup. -/
theorem ok_of_contentReading {tag : String} {reading : Reading}
    (h : contentReading tag cursor = .ok reading stop) :
    ∃ token between, nextContent cursor = .ok (some token) between ∧
      (reading = ⟨.text token.value, token.position, none⟩ ∧ between = stop ∨
        markupReading (some tag) between = .ok reading stop) := by
  obtain ⟨token?, between, hcontent, h⟩ := ok_of_bind h
  cases token? with
  | none => simp [refuse, fail] at h
  | some token =>
      refine ⟨token, between, hcontent, ?_⟩
      dsimp only at h
      split at h
      · obtain ⟨rfl, rfl⟩ := ok_of_pure h
        exact .inl ⟨rfl, rfl⟩
      · exact .inr h

/-- A name in a tag begins an attribute.  If that has no value, the token behind the
name has been read ahead. -/
theorem ok_of_attribute {token : Token} {reading : Reading} (hname : token.isIdentifier = true)
    (h : tagReading token cursor = .ok reading stop) :
    (∃ value, reading = ⟨.attr token.value (some value), token.position, none⟩ ∧
      stop.remaining < cursor.remaining) ∨
    ∃ second, reading = ⟨.attr token.value none, token.position, some second⟩ ∧
      nextToken cursor = .ok second stop := by
  rw [tagReading, if_pos hname] at h
  obtain ⟨second, between, hsecond, h⟩ := ok_of_bind h
  split at h
  · obtain ⟨value, further, hvalue, h⟩ := ok_of_bind h
    obtain ⟨_, last, hdemand, hpure⟩ := ok_of_bind h
    obtain ⟨-, rfl⟩ := ok_of_demand hdemand
    obtain ⟨rfl, rfl⟩ := ok_of_pure hpure
    have hlt := Nat.lt_trans (strictlyForward_nextToken hvalue) (strictlyForward_nextToken hsecond)
    exact .inl ⟨value.value, rfl, hlt⟩
  · obtain ⟨rfl, rfl⟩ := ok_of_pure h
    exact .inr ⟨second, rfl, hsecond⟩

/-- Any other token ends the tag. -/
theorem ok_of_tagEnd {token : Token} {reading : Reading} (hname : ¬ token.isIdentifier = true)
    (h : tagReading token cursor = .ok reading stop) :
    (reading = ⟨.selfClosed, token.position, none⟩ ∨
      reading = ⟨.entered, token.position, none⟩) ∧ stop.remaining ≤ cursor.remaining := by
  rw [tagReading, if_neg hname] at h
  split at h
  · obtain ⟨last, between, hlast, h⟩ := ok_of_bind h
    obtain ⟨_, further, hdemand, hpure⟩ := ok_of_bind h
    obtain ⟨-, rfl⟩ := ok_of_demand hdemand
    obtain ⟨rfl, rfl⟩ := ok_of_pure hpure
    exact ⟨.inl rfl, Nat.le_of_lt (strictlyForward_nextToken hlast)⟩
  · obtain ⟨_, between, hdemand, hpure⟩ := ok_of_bind h
    obtain ⟨-, rfl⟩ := ok_of_demand hdemand
    obtain ⟨rfl, rfl⟩ := ok_of_pure hpure
    exact ⟨.inr rfl, Nat.le_refl _⟩

theorem strictlyForward_contentReading (tag : String) :
    StrictlyForward Cursor.remaining (contentReading tag) := by
  intro cursor reading stop h
  obtain ⟨token, between, hcontent, hrest⟩ := ok_of_contentReading h
  have hlt : between.remaining < cursor.remaining := remaining_nextContent hcontent
  rcases hrest with ⟨-, rfl⟩ | hmarkup
  · exact hlt
  · exact Nat.lt_trans (strictlyForward_markupReading _ hmarkup) hlt

/-- An attribute takes at least one character more than the token that it reads
ahead. -/
theorem remaining_tagReading {token : Token} {reading : Reading}
    (h : tagReading token cursor = .ok reading stop) :
    stop.remaining + (reading.pending.elim 0 fun _ => 1) ≤ cursor.remaining := by
  by_cases hname : token.isIdentifier = true
  · rcases ok_of_attribute hname h with ⟨value, rfl, hlt⟩ | ⟨second, rfl, hsecond⟩
    · exact Nat.le_of_lt hlt
    · exact strictlyForward_nextToken hsecond
  · obtain ⟨rfl | rfl, hle⟩ := ok_of_tagEnd hname h
    · exact hle
    · exact hle

theorem pending_markupReading {enclosing : Option String} {reading : Reading}
    (h : markupReading enclosing cursor = .ok reading stop) : reading.pending = none := by
  obtain ⟨token, between, event, -, -, rfl⟩ := ok_of_markupReading h
  rfl

theorem pending_contentReading {tag : String} {reading : Reading}
    (h : contentReading tag cursor = .ok reading stop) : reading.pending = none := by
  obtain ⟨token, between, -, ⟨rfl, -⟩ | hmarkup⟩ := ok_of_contentReading h
  · rfl
  · exact pending_markupReading hmarkup

end Scan

/-- Reading an event leaves less to read. -/
theorem remaining_nextReading {place : Place} {cursor stop : Cursor} {reading : Reading}
    (h : nextReading place cursor = .ok (some reading) stop) :
    stop.remaining + (reading.pending.elim 0 fun _ => 1) < cursor.remaining + place.held := by
  rcases place with - | tag | - | token
  -- Outside every element the `<` itself is read as well.
  · simp only [nextReading] at h
    split at h
    · simp at h
    · next index hindex =>
        obtain ⟨found, hfound, hsome⟩ := ok_of_map h
        obtain rfl := Option.some.inj hsome
        have hlt := strictlyForward_markupReading none hfound
        have hle := Text.indexOf?_add_le hindex
        rw [pending_markupReading hfound]
        rw [Cursor.remaining_skip] at hlt
        simp only [Cursor.remaining, List.length_singleton] at hlt hle ⊢
        simp only [Option.elim_none, Place.held]
        omega
  · obtain ⟨found, hfound, hsome⟩ := ok_of_map h
    obtain rfl := Option.some.inj hsome
    rw [pending_contentReading hfound]
    exact strictlyForward_contentReading tag hfound
  · obtain ⟨token, between, htoken, hrest⟩ := ok_of_bind h
    obtain ⟨found, hfound, hsome⟩ := ok_of_map hrest
    obtain rfl := Option.some.inj hsome
    exact Nat.lt_of_le_of_lt (remaining_tagReading hfound) (strictlyForward_nextToken htoken)
  · obtain ⟨found, hfound, hsome⟩ := ok_of_map h
    obtain rfl := Option.some.inj hsome
    exact Nat.lt_succ_of_le (remaining_tagReading hfound)

theorem held_place_le (nest : Nest) (pending : Option Token) :
    (nest.place pending).held ≤ pending.elim 0 fun _ => 1 := by
  rcases nest with ⟨- | ⟨tag, outer⟩, - | name⟩ <;> cases pending <;> simp [Place.held]

/-- Behind an event less is unread than in front of it. -/
theorem unread_lt {reader : Reader} {reading : Reading} {cursor : Cursor}
    (h : nextReading reader.place reader.cursor = .ok (some reading) cursor) :
    (reader.after reading cursor).unread < reader.unread :=
  calc (reader.after reading cursor).unread
      ≤ cursor.remaining + (reading.pending.elim 0 fun _ => 1) :=
        Nat.add_le_add_left (held_place_le _ _) _
    _ < reader.unread := remaining_nextReading h

/-! ## Events fit their places -/

theorem fits_of_markupEvent {enclosing : Option String} {token : Token} {event : Event}
    {cursor stop : Cursor} (h : markupEvent enclosing token cursor = .ok event stop) :
    event.Fits (enclosing.elim .document .content) := by
  unfold markupEvent at h
  split at h
  · obtain ⟨sort, between, -, h⟩ := ok_of_bind h
    cases sort with
    | comment =>
        obtain ⟨body, further, -, h⟩ := ok_of_bind h
        obtain ⟨rfl, -⟩ := ok_of_pure h
        cases enclosing <;> trivial
    | bracketed =>
        obtain ⟨_, _, -, h⟩ := ok_of_bind h
        obtain ⟨_, _, -, h⟩ := ok_of_bind h
        obtain ⟨_, _, -, h⟩ := ok_of_bind h
        obtain ⟨_, _, -, h⟩ := ok_of_bind h
        obtain ⟨rfl, -⟩ := ok_of_pure h
        cases enclosing <;> trivial
    | declaration =>
        obtain ⟨_, _, -, h⟩ := ok_of_bind h
        obtain ⟨rfl, -⟩ := ok_of_pure h
        cases enclosing <;> trivial
  · split at h
    · obtain ⟨body, -, rfl⟩ := ok_of_map h
      cases enclosing <;> trivial
    · split at h
      · obtain ⟨name, between, -, h⟩ := ok_of_bind h
        cases enclosing with
        | none => simp [refuse, fail] at h
        | some tag =>
            obtain ⟨_, further, hdemand, h⟩ := ok_of_bind h
            obtain ⟨_, _, -, h⟩ := ok_of_bind h
            obtain ⟨_, _, -, h⟩ := ok_of_bind h
            obtain ⟨rfl, -⟩ := ok_of_pure h
            -- The demand is what makes the names equal.
            have hname := (ok_of_demand hdemand).1
            simp only [Bool.and_eq_true, beq_iff_eq] at hname
            exact hname.2
      · split at h
        · obtain ⟨rfl, -⟩ := ok_of_pure h
          cases enclosing <;> trivial
        · simp [refuse, fail] at h

theorem fits_of_markupReading {enclosing : Option String} {reading : Reading}
    {cursor stop : Cursor} (h : markupReading enclosing cursor = .ok reading stop) :
    reading.event.Fits (enclosing.elim .document .content) := by
  obtain ⟨token, between, event, -, hevent, rfl⟩ := ok_of_markupReading h
  exact fits_of_markupEvent hevent

theorem fits_of_tagReading {token : Token} {reading : Reading} {cursor stop : Cursor}
    (h : tagReading token cursor = .ok reading stop) (pending : Option Token) :
    reading.event.Fits (.tag pending) := by
  by_cases hname : token.isIdentifier = true
  · rcases ok_of_attribute hname h with ⟨value, rfl, -⟩ | ⟨second, rfl, -⟩
    · trivial
    · trivial
  · obtain ⟨rfl | rfl, -⟩ := ok_of_tagEnd hname h
    · trivial
    · trivial

/-- An event fits the place where it is read. -/
theorem fits_of_nextReading {place : Place} {cursor stop : Cursor} {reading : Reading}
    (h : nextReading place cursor = .ok (some reading) stop) : reading.event.Fits place := by
  rcases place with - | tag | - | token
  · simp only [nextReading] at h
    split at h
    · simp at h
    · obtain ⟨found, hfound, hsome⟩ := ok_of_map h
      obtain rfl := Option.some.inj hsome
      exact fits_of_markupReading hfound
  · obtain ⟨found, hfound, hsome⟩ := ok_of_map h
    obtain rfl := Option.some.inj hsome
    obtain ⟨token, between, -, ⟨rfl, -⟩ | hmarkup⟩ := ok_of_contentReading hfound
    · trivial
    · exact fits_of_markupReading hmarkup
  · obtain ⟨token, between, -, h⟩ := ok_of_bind h
    obtain ⟨found, hfound, hsome⟩ := ok_of_map h
    obtain rfl := Option.some.inj hsome
    exact fits_of_tagReading hfound none
  · obtain ⟨found, hfound, hsome⟩ := ok_of_map h
    obtain rfl := Option.some.inj hsome
    exact fits_of_tagReading hfound (some token)

end XmlToJson
