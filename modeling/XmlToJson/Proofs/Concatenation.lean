import XmlToJson.Proofs.Limits
import XmlToJson.Proofs.Relocation
import XmlToJson.Proofs.Transparency

/-!
# One document behind another

A document that is accepted can be put in front of any text.  The conversion of both goes on behind
the first as it begins with the second alone, so the second adds its own contributions to the root
of the first, or fails in its own way, at the corresponding place (`convert_append`).

## Strategy

* **Reading.**  What follows the last tag of the first document is skipped together with what comes
  before the first `<` of the second, so the seam between them does not show (`trace_ignored`).
  Every event of the second is then met at its place behind the first (`trace_append`), since the
  same characters give the same events elsewhere (`Relocation.lean`).
* **Building.**  `Abreast` compares the builder behind the first document with the one that has just
  begun: both have the same open, and only the root, the counters and the depth that has been
  reached differ.  An event other than an opening tag looks at nothing but what is open
  (`frames_apply`).  An opening tag is taken apart in `Abreast.openElement`: it opens the same
  element or fails at the place that is relocated, and only where the machine has no room left for
  it the depth is told that was reached before.  `Abreast.applyAll` is the induction on the events.
* **Failing.**  `ConversionError.relocate` moves the place of a failure and nothing else in it, so
  its kind and its message are the same (`kindName_relocate`, `plainMessage_relocate`).

`Seam` collects what is known of the builder where the second text begins, and `outcome_append` says
what comes of the rest, from which the statement on whole conversions follows.
-/

namespace XmlToJson

/-! ## The events of two texts -/

namespace Text

/-- A character is looked for behind a run in which it does not occur. -/
theorem indexOf?_behind {c : Char} {front : List Char} (h : c ∉ front) (rest : List Char) :
    indexOf? [c] (front ++ rest) = (indexOf? [c] rest).map (front.length + ·) := by
  induction front with
  | nil => simp
  | cons d front ih =>
      obtain ⟨hd, hfront⟩ := not_or.1 (fun hmem => h (List.mem_cons.2 hmem))
      have hprefix : ¬ [c].isPrefixOf (d :: (front ++ rest)) = true := by simpa using hd
      rw [List.cons_append, indexOf?, if_neg hprefix, ih hfront, Option.map_map]
      congr 1
      funext index
      simp only [Function.comp_apply, List.length_cons]
      omega

end Text

namespace Reader

variable {cursor : Cursor} {ignored rest : List Char}

/-- Outside every element a run without a `<` makes no difference. -/
theorem nextReading_ignored (hcursor : cursor.rest = ignored ++ rest) (hignored : '<' ∉ ignored) :
    nextReading .document cursor = nextReading .document (cursor.skip ignored.length) := by
  have hrest : (cursor.skip ignored.length).rest = rest := rest_skip hcursor
  simp only [nextReading, hrest, hcursor, Text.indexOf?_behind hignored]
  cases Text.indexOf? ['<'] rest with
  | none =>
      have hremaining : cursor.remaining = ignored.length + rest.length := by
        rw [Cursor.remaining, hcursor, List.length_append]
      have hskipped : (cursor.skip ignored.length).remaining = rest.length := by
        rw [Cursor.remaining, hrest]
      simp only [Option.map_none, Cursor.skipAll, hremaining, hskipped, Cursor.skip_skip]
  | some index => simp only [Option.map_some, Cursor.skip_skip, Nat.add_assoc]

theorem trace_ignored (hcursor : cursor.rest = ignored ++ rest) (hignored : '<' ∉ ignored) :
    (between [] cursor).trace = (between [] (cursor.skip ignored.length)).trace := by
  have hread : nextReading (between [] cursor).place cursor =
      nextReading (between [] (cursor.skip ignored.length)).place (cursor.skip ignored.length) :=
    nextReading_ignored hcursor hignored
  cases hnext : nextReading (between [] (cursor.skip ignored.length)).place
      (cursor.skip ignored.length) with
  | error error stop => rw [trace_of_error hnext, trace_of_error (hread.trans hnext)]
  | ok reading? stop =>
      cases reading? with
      | none => rw [trace_of_end hnext, trace_of_end (hread.trans hnext)]
      | some reading =>
          rw [trace_of_step hnext, trace_of_step (hread.trans hnext)]
          rfl

/-- A reader that goes on stays in its text, and so does a token that it has read ahead. -/
theorem Advances.tracks {source : List Char} {reader last : Reader} {entries : List Entry}
    (h : Advances reader entries last) (hcursor : reader.cursor.Tracks source)
    (hpending : Scan.AreIn source reader.pending) :
    last.cursor.Tracks source ∧ Scan.AreIn source last.pending := by
  induction h with
  | refl reader => exact ⟨hcursor, hpending⟩
  | @step reader last reading stop entries hread _ ih =>
      have hstays := Scan.keeps_nextReading reader.nest hpending hcursor
      rw [show reader.nest.place reader.pending = reader.place from rfl, hread] at hstays
      exact ih hstays.1 (hstays.2 reading rfl).pending

end Reader

/-- The events of a text behind one without a fault are those that it has alone, at their places
behind the first. -/
theorem trace_append {first : String} (hfault : (Trace.ofText first).fault = none)
    (second : String) :
    ∃ met, met.map (·.event) = (Trace.ofText first).entries.map (·.event) ∧
      (Trace.ofText (first ++ second)).entries = met ++
        (Trace.ofText second).entries.map (Entry.relocate (.advanceOver .start first.toList)) ∧
      (Trace.ofText (first ++ second)).fault =
        (Trace.ofText second).fault.map
          (MarkupError.relocate (.advanceOver .start first.toList)) := by
  have hrest : (Reader.ofText (first ++ second)).cursor.rest =
      (Reader.ofText first).cursor.rest ++ second.toList := String.toList_append
  obtain ⟨met, stop, ignored, hadvances, hmet, hstop, hignored⟩ :=
    Reader.advances_of_trace hfault (fun _ => rfl) (alike_ofText first (first ++ second)) hrest
  -- What was read and what is ignored are together the first text.
  obtain ⟨read, hsource, hposition⟩ :=
    (hadvances.tracks (.ofText (first ++ second)) Scan.areIn_none).1.place
  have hfirst : first.toList = read ++ ignored := by
    refine (List.append_left_inj second.toList).1 ?_
    rw [List.append_assoc, ← hstop, ← String.toList_append]
    exact hsource
  have hseam : stop.skip ignored.length =
      (Cursor.ofText second).relocate (.advanceOver .start first.toList) := by
    have hbehind : (stop.skip ignored.length).rest = second.toList := rest_skip hstop
    have hplace : (stop.skip ignored.length).position = .advanceOver .start first.toList := by
      have htake : stop.rest.take ignored.length = ignored := by rw [hstop, List.take_left]
      rw [Cursor.skip, htake, hfirst, Position.advanceOver_append]
      exact congrArg (Position.advanceOver · ignored) hposition
    calc stop.skip ignored.length
        = ⟨(stop.skip ignored.length).rest, (stop.skip ignored.length).position, none⟩ := rfl
      _ = ⟨second.toList, .advanceOver .start first.toList, none⟩ := by rw [hbehind, hplace]
      _ = (Cursor.ofText second).relocate (.advanceOver .start first.toList) := by
        simp [Cursor.ofText, Cursor.relocate]
  have htrace : (Reader.between [] stop).trace =
      (Trace.ofText second).relocate (.advanceOver .start first.toList) := by
    rw [Reader.trace_ignored hstop hignored, hseam]
    exact Reader.trace_relocate _ (Reader.ofText second)
  refine ⟨met, hmet, ?_, ?_⟩
  · rw [Trace.ofText, hadvances.trace, htrace]
    rfl
  · rw [Trace.ofText, hadvances.trace, htrace]
    rfl

theorem Spells.relocate {entries : List Entry} {items : List Item} (h : Spells entries items)
    (base : Position) : Spells (entries.map (Entry.relocate base)) items := by
  have hevents : ∀ inTag : List Entry,
      (inTag.map (Entry.relocate base)).map (·.event) = inTag.map (·.event) := by
    intro inTag
    rw [List.map_map]
    rfl
  induction h with
  | nil => exact .nil
  | leaf hitem _ ih => exact .leaf hitem ih
  | selfClosing hopening hattributes hending _ ih =>
      rw [List.map_cons, List.map_append, List.map_cons]
      exact .selfClosing hopening ((hevents _).trans hattributes) hending ih
  | element hopening hattributes hending _ hclosing _ ihinner ih =>
      rw [List.map_cons, List.map_append, List.map_cons, List.map_append, List.map_cons]
      exact .element hopening ((hevents _).trans hattributes) hending ihinner hclosing ih

/-! ## Failures elsewhere -/

/-- The same failure, behind `base`. -/
def ConversionError.relocate (base : Position) : ConversionError → ConversionError
  | .malformed error => .malformed (error.relocate base)
  | .tooDeep limit tag position => .tooDeep limit tag (position.map base.relocate)
  | .tooLong length limit => .tooLong length limit

def Failure.relocate (base : Position) : Failure → Failure
  | .refused error => .refused (error.relocate base)
  | .integerTooLong => .integerTooLong

namespace ConversionError

variable (base : Position) (error : ConversionError)

@[simp] theorem kindName_relocate : (error.relocate base).kindName = error.kindName := by
  cases error <;> rfl

@[simp] theorem plainMessage_relocate :
    (error.relocate base).plainMessage = error.plainMessage := by
  cases error <;> rfl

theorem position?_relocate :
    (error.relocate base).position? = error.position?.map base.relocate := by
  cases error <;> rfl

end ConversionError

/-! ## Two builders side by side -/

namespace Builder

variable {converter : Converter} {ceiling : Option Nat} {first second : Builder}

/-- What is open, with what was gathered for it. -/
def frames (builder : Builder) : List (String × Object) × Option (String × Object) :=
  (builder.stack, builder.tag)

theorem frames_contribute (h : second.frames = first.frames) (key : String) (value : Value) :
    (second.contribute key value).frames = (first.contribute key value).frames := by
  obtain ⟨root, stack, tag, metrics, log⟩ := first
  obtain ⟨otherRoot, otherStack, otherTag, otherMetrics, otherLog⟩ := second
  obtain ⟨rfl, rfl⟩ := Prod.mk.inj h
  cases otherStack <;> rfl

theorem frames_contributeText (h : second.frames = first.frames) (text : String) :
    (second.contributeText converter text).map frames =
      (first.contributeText converter text).map frames := by
  unfold contributeText
  split
  · exact congrArg Except.ok h
  · cases converter.scalar? text with
    | error failure => rfl
    | ok value => exact congrArg Except.ok (frames_contribute h _ value)

theorem frames_addAttribute (h : second.frames = first.frames) (name : String)
    (value : Option String) :
    (second.addAttribute converter name value).map frames =
      (first.addAttribute converter name value).map frames := by
  obtain ⟨root, stack, tag, metrics, log⟩ := first
  obtain ⟨otherRoot, otherStack, otherTag, otherMetrics, otherLog⟩ := second
  obtain ⟨rfl, rfl⟩ := Prod.mk.inj h
  cases otherTag with
  | none => rfl
  | some frame =>
      simp only [addAttribute]
      cases (value.elim (.ok (.string "")) converter.scalar? : Except Failure Value) <;> rfl

theorem frames_enter (h : second.frames = first.frames) :
    second.enter.frames = first.enter.frames := by
  obtain ⟨root, stack, tag, metrics, log⟩ := first
  obtain ⟨otherRoot, otherStack, otherTag, otherMetrics, otherLog⟩ := second
  obtain ⟨rfl, rfl⟩ := Prod.mk.inj h
  cases otherTag <;> rfl

theorem frames_selfClose (h : second.frames = first.frames) :
    second.selfClose.frames = first.selfClose.frames := by
  obtain ⟨root, stack, tag, metrics, log⟩ := first
  obtain ⟨otherRoot, otherStack, otherTag, otherMetrics, otherLog⟩ := second
  obtain ⟨rfl, rfl⟩ := Prod.mk.inj h
  cases otherTag with
  | none => rfl
  | some frame =>
      obtain ⟨tag, object⟩ := frame
      refine @frames_contribute ⟨root, otherStack, none, metrics, log⟩
        ⟨otherRoot, otherStack, none, otherMetrics, otherLog⟩ ?_ tag object.foldSelfClosing
      rfl

theorem frames_close (h : second.frames = first.frames) :
    second.close.frames = first.close.frames := by
  obtain ⟨root, stack, tag, metrics, log⟩ := first
  obtain ⟨otherRoot, otherStack, otherTag, otherMetrics, otherLog⟩ := second
  obtain ⟨rfl, rfl⟩ := Prod.mk.inj h
  cases otherStack with
  | nil => rfl
  | cons frame outer =>
      obtain ⟨name, object⟩ := frame
      refine @frames_contribute ⟨root, outer, otherTag, metrics, log⟩
        ⟨otherRoot, outer, otherTag, otherMetrics, otherLog⟩ ?_ name object.fold
      rfl

/-- What an event that opens nothing does to what is open does not depend on the root and on the
counters. -/
theorem frames_apply (h : second.frames = first.frames) {entry other : Entry}
    (hevent : other.event = entry.event) (hopened : ∀ tag, entry.event ≠ .opened tag) :
    (second.apply converter ceiling other).map frames =
      (first.apply converter ceiling entry).map frames := by
  unfold apply
  rw [hevent]
  cases hentry : entry.event with
  | opened tag => exact absurd hentry (hopened tag)
  | attr name value => exact frames_addAttribute h name value
  | entered => exact congrArg Except.ok (frames_enter h)
  | selfClosed => exact congrArg Except.ok (frames_selfClose h)
  | text text => exact frames_contributeText h text
  | cdata text =>
      refine frames_contributeText ?_ text
      exact h
  | comment | instruction | declaration => exact congrArg Except.ok h
  | closed found => exact congrArg Except.ok (frames_close h)

/-- Whether two builders have the same open, the second after it has reached the depth `front`. -/
structure Abreast (front : Nat) (alone together : Builder) : Prop where
  frames : together.frames = alone.frames
  depth : together.metrics.depth = max front alone.metrics.depth
  /-- What is open has been counted. -/
  reached : alone.nest.depth ≤ alone.metrics.depth

variable {front : Nat} {alone together next made : Builder} {base : Position}

theorem Abreast.stack_eq (h : Abreast front alone together) : together.stack = alone.stack :=
  (Prod.mk.inj h.frames).1

theorem Abreast.tag_eq (h : Abreast front alone together) : together.tag = alone.tag :=
  (Prod.mk.inj h.frames).2

/-- Only an opening tag goes deeper, and it counts the depth that it comes to. -/
theorem depth_nest_apply {entry : Entry} (h : alone.apply converter ceiling entry = .ok next) :
    next.nest.depth ≤ max alone.nest.depth (alone.counts entry.event).depth := by
  rw [nest_apply h]
  by_cases hopened : ∀ tag, entry.event ≠ .opened tag
  · exact Nat.le_trans (Nest.depth_after_le hopened _) (Nat.le_max_left _ _)
  · obtain ⟨tag, htag⟩ := exists_tag hopened
    rw [htag, Nest.depth_after_opened]
    refine Nat.le_trans (Nat.le_of_eq ?_) (Nat.le_max_right _ _)
    show (alone.stack.map (·.1)).length + 1 = alone.stack.length + 1
    rw [List.length_map]

/-- Builders that stay the same in what is open stay abreast. -/
theorem Abreast.of_apply (h : Abreast front alone together) {entry other : Entry}
    (hevent : other.event = entry.event) (halone : alone.apply converter ceiling entry = .ok next)
    (htogether : together.apply converter ceiling other = .ok made)
    (hframes : made.frames = next.frames) : Abreast front next made where
  frames := hframes
  depth := by
    have hcounts : together.counts other.event = alone.counts entry.event := by
      unfold counts
      rw [hevent, h.stack_eq, h.tag_eq]
    obtain ⟨hnext, -⟩ := effect_of_apply halone
    obtain ⟨hmade, -⟩ := effect_of_apply htogether
    rw [hnext, hmade, hcounts]
    show max together.metrics.depth _ = max front (max alone.metrics.depth _)
    rw [h.depth, Nat.max_assoc]
  reached := by
    obtain ⟨hnext, -⟩ := effect_of_apply halone
    have hreached := h.reached
    rw [hnext]
    calc next.nest.depth
        ≤ max alone.nest.depth (alone.counts entry.event).depth := depth_nest_apply halone
      _ ≤ max alone.metrics.depth (alone.counts entry.event).depth := by omega

/-- A text that cannot be read is the only failure of an event that opens nothing. -/
theorem integerTooLong_of_apply {entry : Entry} {failure : Failure}
    (hopened : ∀ tag, entry.event ≠ .opened tag)
    (h : alone.apply converter ceiling entry = .error failure) : failure = .integerTooLong := by
  obtain ⟨event, start, behind⟩ := entry
  cases event with
  | opened tag => exact absurd rfl (hopened tag)
  | attr name value => exact (overflows_of_addAttribute h).1
  | text text => exact (@overflows_of_contributeText _ _ _ (.text text) text rfl h).1
  | cdata text => exact (@overflows_of_contributeText _ _ _ (.cdata text) text rfl h).1
  | entered | selfClosed | comment | instruction | declaration | closed => simp [apply] at h

/-- An element is opened or refused behind `base` as it is alone.  Where it is too deep whatever
the settings allow, the depth that is reported is the one that is open, which is greater than any
that was reached in front. -/
theorem Abreast.openElement (h : Abreast front alone together)
    (hfront : ∀ bound, ceiling = some bound → front ≤ bound) (tag : String)
    (start behind : Position) :
    match alone.openElement converter ceiling tag start behind with
    | .error failure =>
        together.openElement converter ceiling tag (base.relocate start) (base.relocate behind) =
          .error (failure.relocate base)
    | .ok next => ∃ made,
        together.openElement converter ceiling tag (base.relocate start) (base.relocate behind) =
          .ok made ∧ made.frames = next.frames := by
  unfold Builder.openElement
  dsimp only
  rw [h.stack_eq]
  by_cases hlimit :
      converter.settings.maxNestingDepth.isBelow (alone.stack.length + 1 : Nat) = true
  · simp only [hlimit, if_true]
    rfl
  · simp only [hlimit]
    cases ceiling with
    | none => exact ⟨_, rfl, by simp [Builder.frames]⟩
    | some bound =>
        by_cases hbound : bound < alone.stack.length + 1
        · have hopen : alone.stack.length ≤ alone.nest.depth := by
            simp [nest, Nest.depth]
          have hdepth : together.metrics.depth = alone.metrics.depth := by
            rw [h.depth]
            have hle := hfront bound rfl
            have hreached := h.reached
            omega
          simp only [Option.any_some, hbound, decide_true, if_true, hdepth]
          rfl
        · simp only [Option.any_some, hbound, decide_false]
          exact ⟨_, rfl, by simp [Builder.frames]⟩

theorem Abreast.apply (h : Abreast front alone together)
    (hfront : ∀ bound, ceiling = some bound → front ≤ bound) (entry : Entry) :
    match alone.apply converter ceiling entry with
    | .error failure =>
        together.apply converter ceiling (entry.relocate base) = .error (failure.relocate base)
    | .ok next => ∃ made,
        together.apply converter ceiling (entry.relocate base) = .ok made ∧
          Abreast front next made := by
  have hevent : (entry.relocate base).event = entry.event := rfl
  by_cases hopened : ∀ tag, entry.event ≠ .opened tag
  · have hframes := @frames_apply converter ceiling _ _ h.frames entry (entry.relocate base) hevent
      hopened
    cases halone : alone.apply converter ceiling entry with
    | error failure =>
        rw [halone] at hframes
        obtain rfl := integerTooLong_of_apply hopened halone
        cases htogether : together.apply converter ceiling (entry.relocate base) with
        | error found =>
            rw [htogether] at hframes
            obtain rfl := Except.error.inj hframes
            rfl
        | ok made => simp [htogether, Except.map] at hframes
    | ok next =>
        rw [halone] at hframes
        obtain ⟨made, hmade, hsame⟩ := exists_of_map_ok hframes
        exact ⟨made, hmade, h.of_apply hevent halone hmade hsame⟩
  · obtain ⟨tag, htag⟩ := exists_tag hopened
    have hopen := @Abreast.openElement converter ceiling front alone together base h hfront tag
      entry.start entry.behind
    have htogether : together.apply converter ceiling (entry.relocate base) =
        together.openElement converter ceiling tag (base.relocate entry.start)
          (base.relocate entry.behind) := apply_opened htag
    rw [← apply_opened htag, ← htogether] at hopen
    cases halone : alone.apply converter ceiling entry with
    | error failure =>
        rw [halone] at hopen
        exact hopen
    | ok next =>
        rw [halone] at hopen
        obtain ⟨made, hmade, hsame⟩ := hopen
        exact ⟨made, hmade, h.of_apply hevent halone hmade hsame⟩

/-- Builders that are abreast stay so, or fail in the same way. -/
theorem Abreast.applyAll (h : Abreast front alone together)
    (hfront : ∀ bound, ceiling = some bound → front ≤ bound) (entries : List Entry) :
    match alone.applyAll converter ceiling entries with
    | .error failure =>
        together.applyAll converter ceiling (entries.map (Entry.relocate base)) =
          .error (failure.relocate base)
    | .ok built => ∃ made,
        together.applyAll converter ceiling (entries.map (Entry.relocate base)) = .ok made ∧
          Abreast front built made := by
  induction entries generalizing alone together with
  | nil => exact ⟨together, rfl, h⟩
  | cons entry rest ih =>
      have hfirst := @Abreast.apply converter ceiling front alone together base h hfront entry
      rw [List.map_cons, Builder.applyAll, Builder.applyAll]
      cases halone : alone.apply converter ceiling entry with
      | error failure =>
          rw [halone] at hfirst
          simp only [hfirst]
      | ok next =>
          rw [halone] at hfirst
          obtain ⟨made, hmade, hnext⟩ := hfirst
          simp only [hmade]
          exact ih hnext

/-- No depth beyond the ceiling is counted. -/
theorem depth_le_of_applyAll {bound : Nat} {entries : List Entry} {builder built : Builder}
    (hbuilder : builder.metrics.depth ≤ bound)
    (h : builder.applyAll converter (some bound) entries = .ok built) :
    built.metrics.depth ≤ bound := by
  induction entries generalizing builder with
  | nil =>
      obtain rfl := Except.ok.inj h
      exact hbuilder
  | cons entry rest ih =>
      obtain ⟨next, happly, hrest⟩ := applyAll_cons_ok h
      refine ih ?_ hrest
      obtain ⟨hmetrics, -⟩ := effect_of_apply happly
      rw [hmetrics]
      refine Nat.max_le.2 ⟨hbuilder, ?_⟩
      by_cases hopened : ∀ tag, entry.event ≠ .opened tag
      · have hnone : (builder.counts entry.event).depth = 0 := by
          cases hentry : entry.event with
          | opened tag => exact absurd hentry (hopened tag)
          | _ => rfl
        rw [hnone]
        exact Nat.zero_le _
      · obtain ⟨tag, htag⟩ := exists_tag hopened
        rw [apply_opened htag, Builder.openElement] at happly
        split at happly
        · simp at happly
        · split at happly
          · simp at happly
          · next hceiling =>
              rw [htag]
              show builder.stack.length + 1 ≤ bound
              simpa using hceiling

/-- An element that is refused is reported where it stands. -/
theorem position_of_applyAll {source : List Char} {entries : List Entry} {builder : Builder}
    {error : ConversionError} (hstart : ∀ entry ∈ entries, entry.start.IsIn source)
    (hbehind : ∀ entry ∈ entries, entry.behind.IsIn source)
    (h : builder.applyAll converter ceiling entries = .error (.refused error)) :
    ∃ position, error.position? = some position ∧ position.IsIn source := by
  induction entries generalizing builder with
  | nil => simp [Builder.applyAll] at h
  | cons entry rest ih =>
      rw [List.forall_mem_cons] at hstart hbehind
      rw [Builder.applyAll] at h
      cases happly : builder.apply converter ceiling entry with
      | ok next =>
          rw [happly] at h
          exact ih hstart.2 hbehind.2 h
      | error failure =>
          rw [happly] at h
          obtain rfl := Except.error.inj h
          by_cases hopened : ∀ tag, entry.event ≠ .opened tag
          · exact absurd (integerTooLong_of_apply hopened happly) (by simp)
          · obtain ⟨tag, htag⟩ := exists_tag hopened
            rw [apply_opened htag, Builder.openElement] at happly
            split at happly
            · cases happly
              exact ⟨entry.start, rfl, hstart.1⟩
            · split at happly
              · cases happly
                exact ⟨entry.behind, rfl, hbehind.1⟩
              · simp at happly

end Builder

/-! ## Conversions -/

namespace Converter

variable {converter : Converter} {first second : String} {found : Conversion}

/-- A failure that a conversion reports names a place of its text, unless the text is too long. -/
theorem position_of_convert {text : String} {error : ConversionError}
    (hlength : converter.exceededLimit? text = none)
    (h : (converter.convert text).outcome = .error (.refused error)) :
    ∃ position, error.position? = some position ∧ position.IsIn text.toList := by
  obtain ⟨hstart, hbehind, hfault⟩ := Trace.ofText_isIn text
  rw [convert_outcome hlength, Builder.outcome_follow] at h
  cases happly : (converter.machine text).builder.applyAll converter converter.ceiling
      (Trace.ofText text).entries with
  | error failure =>
      rw [happly] at h
      obtain rfl := Except.error.inj h
      exact Builder.position_of_applyAll hstart hbehind happly
  | ok built =>
      rw [happly] at h
      cases herror : (Trace.ofText text).fault with
      | none => simp [herror, Except.map] at h
      | some problem =>
          rw [herror] at h
          cases h
          exact hfault problem herror

/-- Whether `made` is what has been built behind a first document, where a second text goes on: the
first has been converted, and nothing is open. -/
structure Seam (converter : Converter) (first second : String) (found : Conversion)
    (items : List Item) (made : Builder) : Prop where
  spells : Spells (Trace.ofText first).entries items
  data : found.data = .gather (contributions converter.valueOf items)
  root : made.root = found.data
  frames : made.frames = ([], none)
  metrics : made.metrics = found.metrics.join { characters := second.length }
  depth : found.metrics.depth ≤ converter.host.elementLevels
  applyAll : (converter.machine (first ++ second)).builder.applyAll converter converter.ceiling
      (Trace.ofText (first ++ second)).entries =
    made.applyAll converter converter.ceiling
      ((Trace.ofText second).entries.map (Entry.relocate (.advanceOver .start first.toList)))
  fault : (Trace.ofText (first ++ second)).fault =
    (Trace.ofText second).fault.map (MarkupError.relocate (.advanceOver .start first.toList))

theorem exists_seam (hfirst : (converter.convert first).outcome = .ok found) (second : String) :
    ∃ items made, Seam converter first second found items made := by
  obtain ⟨-, hfault, built, hbuilt, rfl⟩ := applyAll_of_convert hfirst
  obtain ⟨items, hitems⟩ := exists_spells first hfault
  obtain ⟨hgrown, -⟩ := hitems.grown_of_applyAll rfl hbuilt
  obtain ⟨met, hmet, hentries, htail⟩ := trace_append hfault second
  obtain ⟨made, hmade, log, rfl⟩ :=
    (matches_machine (String.length_append first second)).applyAll hmet hbuilt
  have hframes : built.frames = ([], none) := by
    rw [Builder.frames, hgrown.stack, hgrown.tag]
    rfl
  refine ⟨items, built.recounted (built.metrics.join { characters := second.length }) log, hitems,
    hgrown.root, rfl, hframes, rfl, Builder.depth_le_of_applyAll (Nat.zero_le _) hbuilt, ?_, htail⟩
  rw [hentries, Builder.applyAll_append, hmade]

/-- A document behind one that is accepted adds what it contributes to the root of that, and what it
counts to its counters.  One that fails, fails behind it in the same way. -/
theorem outcome_append (hfirst : (converter.convert first).outcome = .ok found)
    (hlimit : converter.settings.maxInputLength = none) (second : String) :
    match (converter.convert second).outcome with
    | .error failure =>
        (converter.convert (first ++ second)).outcome =
          .error (failure.relocate (.advanceOver .start first.toList))
    | .ok last => ∃ items others, Spells (Trace.ofText first).entries items ∧
        Spells (Trace.ofText second).entries others ∧
        found.data = .gather (contributions converter.valueOf items) ∧
        last.data = .gather (contributions converter.valueOf others) ∧
        (converter.convert (first ++ second)).outcome =
          .ok ⟨.gather (contributions converter.valueOf items ++
            contributions converter.valueOf others), found.metrics.join last.metrics,
              converter.correlationId⟩ := by
  have hlength : ∀ text, converter.exceededLimit? text = none := by
    intro text
    rw [exceededLimit?, hlimit]
  obtain ⟨items, made, hseam⟩ := exists_seam hfirst second
  have habreast : Builder.Abreast found.metrics.depth (converter.machine second).builder made := by
    refine ⟨hseam.frames, ?_, Nat.zero_le _⟩
    rw [hseam.metrics]
    rfl
  have hends := @habreast.applyAll converter converter.ceiling _ _ _
    (.advanceOver .start first.toList) (fun bound hbound => Option.some.inj hbound ▸ hseam.depth)
    (Trace.ofText second).entries
  rw [convert_outcome (hlength second), convert_outcome (hlength (first ++ second)),
    Builder.outcome_follow, Builder.outcome_follow, hseam.applyAll, hseam.fault]
  cases halone : (converter.machine second).builder.applyAll converter converter.ceiling
      (Trace.ofText second).entries with
  | error failure =>
      rw [halone] at hends
      rw [hends]
      rfl
  | ok built =>
      rw [halone] at hends
      obtain ⟨whole, hwhole, -⟩ := hends
      rw [hwhole]
      cases herror : (Trace.ofText second).fault with
      | some error => rfl
      | none =>
          obtain ⟨others, hothers⟩ := exists_spells second herror
          obtain ⟨halone, -⟩ := hothers.grown_of_applyAll rfl halone
          obtain ⟨htogether, -⟩ := (hothers.relocate _).grown_of_applyAll
            (Prod.mk.inj hseam.frames).2 hwhole
          have hstack : made.stack = [] := (Prod.mk.inj hseam.frames).1
          refine ⟨items, others, hseam.spells, hothers, hseam.data, halone.root, ?_⟩
          have hwholeRoot : whole.root = .gather (contributions converter.valueOf items ++
              contributions converter.valueOf others) := by
            rw [htogether.root, hstack, hseam.root, hseam.data, Object.gather, Object.gather,
              Object.appendAll_append]
          have hwholeMetrics : whole.metrics = found.metrics.join built.metrics := by
            rw [htogether.metrics, halone.metrics, hseam.metrics, hstack, Metrics.join_assoc]
            rfl
          show Except.ok (converter.conversion (whole.root, whole.metrics)) = _
          rw [hwholeRoot, hwholeMetrics]
          rfl

end Converter

/-- Converting a second text behind a document that is accepted performs on the root the appends of
the first and then those of the second.  The keys of the first keep their places, the counters are
added and the greater depth is kept.  If the second fails alone, both fail with the same kind of
error and the same message, at the place that is as far behind the first as the error is in the
second. -/
theorem convert_append {converter : Converter} {first : String} {found : Conversion}
    (hfirst : (converter.convert first).outcome = .ok found)
    (hlimit : converter.settings.maxInputLength = none) (second : String) :
    (∀ last, (converter.convert second).outcome = .ok last →
      ∃ items others, Spells (Trace.ofText first).entries items ∧
        Spells (Trace.ofText second).entries others ∧
        found.data = .gather (contributions converter.valueOf items) ∧
        last.data = .gather (contributions converter.valueOf others) ∧
        ∃ both, (converter.convert (first ++ second)).outcome = .ok both ∧
          both.data = found.data.appendAll (contributions converter.valueOf others) ∧
          both.data.keys = found.data.keys ++ last.data.keys.filter (· ∉ found.data.keys) ∧
          both.metrics = found.metrics.join last.metrics) ∧
    (∀ error, (converter.convert second).outcome = .error (.refused error) →
      ∃ moved used unused position place,
        (converter.convert (first ++ second)).outcome = .error (.refused moved) ∧
        moved.kindName = error.kindName ∧ moved.plainMessage = error.plainMessage ∧
        second.toList = used ++ unused ∧
        error.position? = some position ∧ Position.counted used = .ok position ∧
        moved.position? = some place ∧
        Position.counted (first.toList ++ used) = .ok place) ∧
    ((converter.convert second).outcome = .error .integerTooLong →
      (converter.convert (first ++ second)).outcome = .error .integerTooLong) := by
  have houtcome := Converter.outcome_append hfirst hlimit second
  refine ⟨fun last hlast => ?_, fun error herror => ?_, fun hlong => ?_⟩
  · rw [hlast] at houtcome
    obtain ⟨items, others, hitems, hothers, hdata, hlastData, hboth⟩ := houtcome
    refine ⟨items, others, hitems, hothers, hdata, hlastData, _, hboth, ?_, ?_, rfl⟩
    · rw [hdata, Object.gather, Object.gather, Object.appendAll_append]
    · show (Object.gather _).keys = _
      rw [Object.gather, Object.appendAll_append, Object.keys_appendAll, hlastData, keys_gather]
      rw [hdata, Object.gather]
  · rw [herror] at houtcome
    have hlength : converter.exceededLimit? second = none := by
      rw [Converter.exceededLimit?, hlimit]
    obtain ⟨position, hposition, used, unused, hsecond, rfl⟩ :=
      Converter.position_of_convert hlength herror
    refine ⟨_, used, unused, _, _, houtcome, ConversionError.kindName_relocate _ _,
      ConversionError.plainMessage_relocate _ _, hsecond, hposition, Position.counted_eq used, ?_,
      Position.counted_eq (first.toList ++ used)⟩
    rw [ConversionError.position?_relocate, hposition, Option.map_some, Position.relocate_behind,
      Position.advanceOver_append]
  · rw [hlong] at houtcome
    exact houtcome

/-- The text behind the first element and the one in front of the second are skipped together. -/
theorem convert_append_siblings :
    ∃ found last both, (({} : Converter).convert "<a>1</a> x").outcome = .ok found ∧
      (({} : Converter).convert "y<b c='2'/>").outcome = .ok last ∧
      (({} : Converter).convert ("<a>1</a> x" ++ "y<b c='2'/>")).outcome = .ok both ∧
      both.data.keys = found.data.keys ++ last.data.keys.filter (· ∉ found.data.keys) ∧
      both.metrics = found.metrics.join last.metrics := by
  have hfirst : (({} : Converter).convert "<a>1</a> x").outcome.toOption.isSome = true := by
    decide +kernel
  have hsecond : (({} : Converter).convert "y<b c='2'/>").outcome.toOption.isSome = true := by
    decide +kernel
  cases hfound : (({} : Converter).convert "<a>1</a> x").outcome with
  | error failure => simp [hfound, Except.toOption] at hfirst
  | ok found =>
      cases hlast : (({} : Converter).convert "y<b c='2'/>").outcome with
      | error failure => simp [hlast, Except.toOption] at hsecond
      | ok last =>
          obtain ⟨-, -, -, -, -, -, both, hboth, -, hkeys, hmetrics⟩ :=
            (convert_append hfound rfl "y<b c='2'/>").1 last hlast
          exact ⟨found, last, both, rfl, rfl, hboth, hkeys, hmetrics⟩

end XmlToJson
