import XmlToJson.Proofs.Events

/-!
# A machine with a stack

The conversion of `Conversion/Tree.lean` is a recursion: an element calls itself for the elements
inside it.  The machine of this file does the same work in one loop.  It keeps the open elements on
a stack, each with its tag and the object that has been gathered for it, above the root;
`Builder.apply` says what one event does to them.  `Machine.run` reads an event at the place that
the stack prescribes and applies it, until the text ends or something fails.

The machine is not what runs; it is what the recursion is compared with (`Descent.lean`).

* **What an event does.**  A text contributes to the innermost element (`contributeText`), a name
  opens one (`openElement`), an attribute adds to the tag (`addAttribute`), and the end of a tag and
  a close tag move the innermost element to the one below it (`enter`, `selfClose`, `close`).  There
  is a `ceiling` that no setting can raise, for the room that the recursion has.
* **What stays open.**  `nest` forgets what was gathered, and `nest_apply` says that an event
  changes the open elements in the way that it says itself.  So the machine and a reader that builds
  nothing take the same way (`reader_of_after`).
* **The events of a text.**  Since reading does not depend on what is built, `Reader.trace` is the
  whole sequence of events of a text, up to its end or up to the fault that ends reading.
  `run_eq_follow` says that the machine builds what follows from that sequence, so a statement about
  all documents becomes one about lists of events.
-/

namespace XmlToJson

/-! ## What an event does -/

/-- What has been built of a document. -/
structure Builder where
  root : Object
  /-- The open elements with their tags, the innermost one first. -/
  stack : List (String × Object) := []
  /-- The tag that is being read, with the attributes so far. -/
  tag : Option (String × Object) := none
  metrics : Metrics
  log : List LogRecord

/-- The depth of elements that the machine of a converter grants, whatever the settings allow. -/
abbrev Converter.ceiling (converter : Converter) : Option Nat :=
  some converter.host.elementLevels

/-- The value of the text of an attribute or an element. -/
def Converter.scalar? (converter : Converter) (text : String) : Except Failure Value :=
  if converter.settings.keepStrings.isTruthy then .ok (.string text)
  else
    match Scalar.ofText text with
    | .ok value => .ok value
    | .error .tooLong => .error .integerTooLong

/-- A mapped outcome is a success if the outcome is. -/
theorem exists_of_map_ok {ε α β : Type} {outcome : Except ε α} {change : α → β} {value : β}
    (h : outcome.map change = .ok value) : ∃ found, outcome = .ok found ∧ change found = value := by
  cases outcome with
  | error failure => simp [Except.map] at h
  | ok found => exact ⟨found, rfl, by simpa [Except.map] using h⟩

/-- What was found is a result. -/
theorem exists_of_isSome {ε α : Type} {outcome : Except ε α}
    (h : outcome.toOption.isSome = true) : ∃ found, outcome = .ok found := by
  cases outcome with
  | error failure => simp [Except.toOption] at h
  | ok found => exact ⟨found, rfl⟩

namespace Builder

/-- The open elements without what was gathered for them. -/
def nest (builder : Builder) : Nest :=
  ⟨builder.stack.map (·.1), builder.tag.map (·.1)⟩

/-- Adds a value to the innermost open element, or to the root. -/
def contribute (builder : Builder) (key : String) (value : Value) : Builder :=
  match builder.stack with
  | [] => { builder with root := builder.root.append key value }
  | (tag, object) :: outer => { builder with stack := (tag, object.append key value) :: outer }

def contributeText (converter : Converter) (builder : Builder) (text : String) :
    Except Failure Builder :=
  if text = "" then .ok builder
  else (converter.scalar? text).map (builder.contribute Object.contentKey)

/-- Begins an element, if it is not too deep.  `ceiling` is a depth that no setting
can raise. -/
def openElement (converter : Converter) (ceiling : Option Nat) (builder : Builder) (tag : String)
    (start behind : Position) : Except Failure Builder :=
  let limit := converter.settings.maxNestingDepth
  let level := builder.stack.length + 1
  if limit.isBelow level then .error (.refused (.tooDeep limit (some tag) (some start)))
  else if ceiling.any (· < level) then
    .error (.refused (.tooDeep (.integer builder.metrics.depth) none (some behind)))
  else
    .ok { builder with tag := some (tag, .empty), metrics := builder.metrics.countElement level }

def addAttribute (converter : Converter) (builder : Builder) (name : String)
    (value : Option String) : Except Failure Builder :=
  match builder.tag with
  | none => .ok builder
  | some (tag, object) =>
      (value.elim (.ok (.string "")) converter.scalar?).map fun value =>
        { builder with
          tag := some (tag, object.append name value), metrics := builder.metrics.countAttribute }

def enter (builder : Builder) : Builder :=
  match builder.tag with
  | none => builder
  | some frame => { builder with stack := frame :: builder.stack, tag := none }

def selfClose (builder : Builder) : Builder :=
  match builder.tag with
  | none => builder
  | some (tag, object) => { builder with tag := none }.contribute tag object.foldSelfClosing

/-- Closes the innermost element: it is taken from the stack, and its folded object
goes to the one below it. -/
def close (builder : Builder) : Builder :=
  match builder.stack with
  | [] => builder
  | (tag, object) :: outer => { builder with stack := outer }.contribute tag object.fold

/-- What an event does. -/
def apply (converter : Converter) (ceiling : Option Nat) (builder : Builder) (entry : Entry) :
    Except Failure Builder :=
  match entry.event with
  | .opened tag => builder.openElement converter ceiling tag entry.start entry.behind
  | .attr name value => builder.addAttribute converter name value
  | .entered => .ok builder.enter
  | .selfClosed => .ok builder.selfClose
  | .text text => builder.contributeText converter text
  | .cdata text =>
      { builder with metrics := builder.metrics.countCdata }.contributeText converter text
  | .comment _ => .ok { builder with metrics := builder.metrics.countComment }
  | .instruction _ => .ok { builder with metrics := builder.metrics.countInstruction }
  | .declaration =>
      .ok { builder with
        metrics := builder.metrics.countDeclaration
        log := builder.log ++ [converter.logger.record .debug "Skipped markup declaration" []] }
  | .closed _ => .ok builder.close

@[simp] theorem nest_contribute (builder : Builder) (key : String) (value : Value) :
    (builder.contribute key value).nest = builder.nest := by
  unfold contribute nest
  split
  · next h => simp
  · next h => simp [h]

@[simp] theorem nest_enter (builder : Builder) :
    builder.enter.nest = builder.nest.after .entered := by
  rcases builder with ⟨root, stack, - | ⟨tag, object⟩, metrics, log⟩ <;>
    simp [enter, nest, Nest.after]

@[simp] theorem nest_selfClose (builder : Builder) :
    builder.selfClose.nest = builder.nest.after .selfClosed := by
  rcases builder with ⟨root, stack, - | ⟨tag, object⟩, metrics, log⟩
  · rfl
  · exact nest_contribute _ _ _

@[simp] theorem nest_close (builder : Builder) (found : String) :
    builder.close.nest = builder.nest.after (.closed found) := by
  rcases builder with ⟨root, - | ⟨⟨tag, object⟩, outer⟩, inTag, metrics, log⟩
  · rfl
  · exact nest_contribute _ _ _

theorem nest_contributeText {converter : Converter} {builder built : Builder} {text : String}
    (h : builder.contributeText converter text = .ok built) : built.nest = builder.nest := by
  unfold contributeText at h
  split at h
  · obtain rfl := Except.ok.inj h
    rfl
  · obtain ⟨value, -, rfl⟩ := exists_of_map_ok h
    exact nest_contribute _ _ _

theorem nest_openElement {converter : Converter} {ceiling : Option Nat} {builder built : Builder}
    {tag : String} {start behind : Position}
    (h : builder.openElement converter ceiling tag start behind = .ok built) :
    built.nest = builder.nest.after (.opened tag) := by
  unfold openElement at h
  dsimp only at h
  split at h
  · simp at h
  · split at h
    · simp at h
    · obtain rfl := Except.ok.inj h
      rfl

theorem nest_addAttribute {converter : Converter} {builder built : Builder} {name : String}
    {value : Option String} (h : builder.addAttribute converter name value = .ok built) :
    built.nest = builder.nest := by
  unfold addAttribute at h
  split at h
  · obtain rfl := Except.ok.inj h
    rfl
  · next tag object htag =>
      obtain ⟨found, -, rfl⟩ := exists_of_map_ok h
      simp [nest, htag]

/-- An event changes the open elements in the way that it says. -/
theorem nest_apply {converter : Converter} {ceiling : Option Nat} {builder built : Builder}
    {entry : Entry} (h : builder.apply converter ceiling entry = .ok built) :
    built.nest = builder.nest.after entry.event := by
  unfold apply at h
  -- The cases come in the order of the events in `apply`.
  split at h <;> rename_i hevent <;> rw [hevent]
  · exact nest_openElement h
  · exact nest_addAttribute h
  · rw [← Except.ok.inj h, nest_enter]
  · rw [← Except.ok.inj h, nest_selfClose]
  · exact nest_contributeText h
  · exact (nest_contributeText h).trans rfl
  · rw [← Except.ok.inj h]
    rfl
  · rw [← Except.ok.inj h]
    rfl
  · rw [← Except.ok.inj h]
    rfl
  · rw [← Except.ok.inj h, nest_close]

end Builder

/-! ## The machine -/

/-- What is being built, and where reading stands. -/
structure Machine where
  cursor : Cursor
  builder : Builder
  /-- The token behind an attribute without a value. -/
  pending : Option Token := none

/-- What came of building a document: the root and the counters, or a failure. -/
abbrev Built := Logged (Except Failure (Object × Metrics))

namespace Machine

/-- The machine without what it has gathered. -/
def reader (machine : Machine) : Reader :=
  ⟨machine.cursor, machine.builder.nest, machine.pending⟩

/-- The machine behind an event. -/
def after (converter : Converter) (ceiling : Option Nat) (machine : Machine) (reading : Reading)
    (cursor : Cursor) : Except Failure Machine :=
  (machine.builder.apply converter ceiling ⟨reading.event, reading.start, cursor.position⟩).map
    fun builder => ⟨cursor, builder, reading.pending⟩

/-- The machine and the reader take the same way. -/
theorem reader_of_after {converter : Converter} {ceiling : Option Nat} {machine next : Machine}
    {reading : Reading} {cursor : Cursor}
    (h : machine.after converter ceiling reading cursor = .ok next) :
    next.reader = machine.reader.after reading cursor := by
  obtain ⟨builder, hbuilder, rfl⟩ := exists_of_map_ok h
  simp only [reader, Reader.after, Builder.nest_apply hbuilder]

/-- Reads events and applies them until the text ends. -/
def run (converter : Converter) (ceiling : Option Nat) (machine : Machine) : Built :=
  match _hread : nextReading machine.reader.place machine.cursor with
  | .error error _ => ⟨.error (.refused (.malformed error)), machine.builder.log⟩
  | .ok none _ => ⟨.ok (machine.builder.root, machine.builder.metrics), machine.builder.log⟩
  | .ok (some reading) cursor =>
      match _hafter : machine.after converter ceiling reading cursor with
      | .error failure => ⟨.error failure, machine.builder.log⟩
      | .ok next => run converter ceiling next
  termination_by machine.reader.unread
  decreasing_by
    rw [reader_of_after _hafter]
    exact unread_lt _hread

section Equations

variable {converter : Converter} {ceiling : Option Nat} {machine next : Machine} {cursor : Cursor}

theorem run_of_error {error : MarkupError}
    (hread : nextReading machine.reader.place machine.cursor = .error error cursor) :
    machine.run converter ceiling =
      ⟨.error (.refused (.malformed error)), machine.builder.log⟩ := by
  rw [run]
  split <;> simp_all

theorem run_of_end (hread : nextReading machine.reader.place machine.cursor = .ok none cursor) :
    machine.run converter ceiling =
      ⟨.ok (machine.builder.root, machine.builder.metrics), machine.builder.log⟩ := by
  rw [run]
  split <;> simp_all

theorem run_of_refusal {reading : Reading} {failure : Failure}
    (hread : nextReading machine.reader.place machine.cursor = .ok (some reading) cursor)
    (hafter : machine.after converter ceiling reading cursor = .error failure) :
    machine.run converter ceiling = ⟨.error failure, machine.builder.log⟩ := by
  -- `simp_all` cannot rewrite the scrutinee under the proofs that the match binds, so the
  -- equation of the branch is used by hand.
  rw [run]
  split
  · simp_all
  · simp_all
  · next found stop hfound =>
      obtain ⟨hsome, rfl⟩ := by simpa using hread.symm.trans hfound
      subst hsome
      split <;> simp_all

theorem run_of_step {reading : Reading}
    (hread : nextReading machine.reader.place machine.cursor = .ok (some reading) cursor)
    (hafter : machine.after converter ceiling reading cursor = .ok next) :
    machine.run converter ceiling = next.run converter ceiling := by
  rw [run]
  split
  · simp_all
  · simp_all
  · next found stop hfound =>
      obtain ⟨hsome, rfl⟩ := by simpa using hread.symm.trans hfound
      subst hsome
      split <;> simp_all

end Equations

end Machine

/-! ## The events of a text -/

/-- The events of a text up to its end, or up to the fault that ends reading. -/
structure Trace where
  entries : List Entry
  fault : Option MarkupError

namespace Reader

/-- The events that the reader still meets. -/
def trace (reader : Reader) : Trace :=
  match _hread : nextReading reader.place reader.cursor with
  | .error error _ => ⟨[], some error⟩
  | .ok none _ => ⟨[], none⟩
  | .ok (some reading) cursor =>
      let rest := (reader.after reading cursor).trace
      ⟨⟨reading.event, reading.start, cursor.position⟩ :: rest.entries, rest.fault⟩
  termination_by reader.unread
  decreasing_by exact unread_lt _hread

variable {reader : Reader} {cursor : Cursor}

theorem trace_of_error {error : MarkupError}
    (hread : nextReading reader.place reader.cursor = .error error cursor) :
    reader.trace = ⟨[], some error⟩ := by
  rw [trace]
  split <;> simp_all

theorem trace_of_end (hread : nextReading reader.place reader.cursor = .ok none cursor) :
    reader.trace = ⟨[], none⟩ := by
  rw [trace]
  split <;> simp_all

theorem trace_of_step {reading : Reading}
    (hread : nextReading reader.place reader.cursor = .ok (some reading) cursor) :
    reader.trace =
      ⟨⟨reading.event, reading.start, cursor.position⟩ ::
        (reader.after reading cursor).trace.entries,
        (reader.after reading cursor).trace.fault⟩ := by
  rw [trace]
  split
  · simp_all
  · simp_all
  · next found stop hfound =>
      obtain ⟨hsome, rfl⟩ := by simpa using hread.symm.trans hfound
      subst hsome
      rfl

end Reader

def Trace.ofText (text : String) : Trace := (Reader.ofText text).trace

/-- What comes of the events of a text. -/
def Builder.follow (converter : Converter) (ceiling : Option Nat) (fault : Option MarkupError) :
    List Entry → Builder → Built
  | [], builder =>
      match fault with
      | none => ⟨.ok (builder.root, builder.metrics), builder.log⟩
      | some error => ⟨.error (.refused (.malformed error)), builder.log⟩
  | entry :: rest, builder =>
      match builder.apply converter ceiling entry with
      | .error failure => ⟨.error failure, builder.log⟩
      | .ok next => next.follow converter ceiling fault rest

/-- A fault is not followed by a result. -/
theorem Builder.fault_of_follow {converter : Converter} {ceiling : Option Nat}
    {fault : Option MarkupError} {entries : List Entry} {builder : Builder}
    {found : Object × Metrics}
    (h : (builder.follow converter ceiling fault entries).outcome = .ok found) : fault = none := by
  induction entries generalizing builder with
  | nil =>
      cases fault with
      | none => rfl
      | some error => simp [follow] at h
  | cons entry rest ih =>
      unfold follow at h
      cases happly : builder.apply converter ceiling entry with
      | error failure => simp [happly] at h
      | ok next =>
          rw [happly] at h
          exact ih h

/-- The machine builds what follows from the events of the text. -/
theorem Machine.run_eq_follow (converter : Converter) (ceiling : Option Nat) (machine : Machine) :
    machine.run converter ceiling =
      machine.builder.follow converter ceiling machine.reader.trace.fault
        machine.reader.trace.entries := by
  -- The cases are those of the run; in each the trace has the same shape.
  fun_induction Machine.run converter ceiling machine with
  | case1 machine error cursor hread => rw [Reader.trace_of_error hread]; rfl
  | case2 machine cursor hread => rw [Reader.trace_of_end hread]; rfl
  | case3 machine reading cursor hread failure hafter =>
      rw [Reader.trace_of_step hread, Builder.follow]
      unfold Machine.after at hafter
      cases happly : machine.builder.apply converter ceiling
          ⟨reading.event, reading.start, cursor.position⟩ with
      | error found =>
          rw [happly] at hafter
          obtain rfl := Except.error.inj hafter
          rfl
      | ok builder => simp [happly, Except.map] at hafter
  | case4 machine reading cursor hread next hafter ih =>
      rw [ih, Machine.reader_of_after hafter, Reader.trace_of_step hread, Builder.follow]
      obtain ⟨builder, happly, rfl⟩ := exists_of_map_ok hafter
      rw [happly]

end XmlToJson
