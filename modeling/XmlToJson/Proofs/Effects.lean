import XmlToJson.Proofs.Coercion

/-!
# What an event counts, records and fails with

Next to the values that it contributes, an event of a document does three more things: it is
counted, it may write a record, and it may stop the conversion.  All three can be said without
looking at what has been gathered so far.

## Strategy

* **Counting and recording.**  `Builder.counts` and `Converter.records` say what an event adds, by
  what it is and by the depth at which it comes.  `effect_of_apply` has one case for each event, of
  which those that only gather are alike: a contribution changes neither the counters nor the
  records (`metrics_contribute`, `log_contribute`).
* **Failing.**  `Converter.Overflows` says that the text of an event is a whole number that has to
  be read and has too many digits.  An event stops a conversion only for that, or because the
  element that it opens is too deep (`failure_of_apply`).  That a text cannot be read for no other
  reason is `Converter.isLongInteger_of_not_reads`.
* **Runs.**  Both are carried over all events of a document by induction: what has been recorded is
  a list of skipped declarations, one for each that is counted (`recorded_of_follow`), and a run
  that fails has met a fault of the text, an element that is too deep or such a number
  (`failure_of_follow`).

The last three statements lead from a conversion to the events of its text and back
(`Converter.convert_eq_conclude`, `Converter.applyAll_of_convert`, `Converter.convert_of_applyAll`).
-/

namespace XmlToJson

namespace Converter

/-- The record of a declaration that is skipped. -/
def skippedRecord (converter : Converter) : LogRecord :=
  converter.logger.record .debug "Skipped markup declaration" []

/-- The records that an event writes. -/
def records (converter : Converter) : Event → List LogRecord
  | .declaration => [converter.skippedRecord]
  | _ => []

end Converter

namespace Builder

/-- What an event adds to the counters. -/
def counts (builder : Builder) : Event → Metrics
  | .opened _ => { elements := 1, depth := builder.stack.length + 1 }
  | .attr .. => { attributes := builder.tag.toList.length }
  | .cdata _ => { cdataSections := 1 }
  | .comment _ => { comments := 1 }
  | .instruction _ => { instructions := 1 }
  | .declaration => { declarations := 1 }
  | _ => {}

variable {converter : Converter} {ceiling : Option Nat} {builder next : Builder} {entry : Entry}

@[simp] theorem metrics_contribute (builder : Builder) (key : String) (value : Value) :
    (builder.contribute key value).metrics = builder.metrics := by
  unfold contribute
  split <;> rfl

@[simp] theorem log_contribute (builder : Builder) (key : String) (value : Value) :
    (builder.contribute key value).log = builder.log := by
  unfold contribute
  split <;> rfl

theorem effect_of_contributeText {text : String}
    (h : builder.contributeText converter text = .ok next) :
    next.metrics = builder.metrics ∧ next.log = builder.log := by
  unfold contributeText at h
  split at h
  · obtain rfl := Except.ok.inj h
    exact ⟨rfl, rfl⟩
  · obtain ⟨value, -, rfl⟩ := exists_of_map_ok h
    exact ⟨metrics_contribute _ _ _, log_contribute _ _ _⟩

theorem effect_of_addAttribute {name : String} {value : Option String}
    (h : builder.addAttribute converter name value = .ok next) :
    next.metrics = builder.metrics.join { attributes := builder.tag.toList.length } ∧
      next.log = builder.log := by
  obtain ⟨root, stack, - | ⟨tag, object⟩, metrics, log⟩ := builder
  · obtain rfl := Except.ok.inj h
    exact ⟨(Metrics.join_empty _).symm, rfl⟩
  · obtain ⟨found, -, rfl⟩ := exists_of_map_ok h
    exact ⟨by simp [Metrics.countAttribute, Metrics.join], rfl⟩

theorem effect_of_selfClose (builder : Builder) :
    builder.selfClose.metrics = builder.metrics ∧ builder.selfClose.log = builder.log := by
  unfold selfClose
  split
  · exact ⟨rfl, rfl⟩
  · exact ⟨metrics_contribute _ _ _, log_contribute _ _ _⟩

theorem effect_of_close (builder : Builder) :
    builder.close.metrics = builder.metrics ∧ builder.close.log = builder.log := by
  unfold close
  split
  · exact ⟨rfl, rfl⟩
  · exact ⟨metrics_contribute _ _ _, log_contribute _ _ _⟩

theorem effect_of_enter (builder : Builder) :
    builder.enter.metrics = builder.metrics ∧ builder.enter.log = builder.log := by
  unfold enter
  split <;> exact ⟨rfl, rfl⟩

/-- What an event that is applied adds to the counters and to the records. -/
theorem effect_of_apply (h : builder.apply converter ceiling entry = .ok next) :
    next.metrics = builder.metrics.join (builder.counts entry.event) ∧
      next.log = builder.log ++ converter.records entry.event := by
  obtain ⟨event, start, behind⟩ := entry
  -- Most events add no record, and many count nothing.
  have hsame : ∀ {other : Builder}, other.metrics = builder.metrics ∧ other.log = builder.log →
      other.metrics = builder.metrics.join {} ∧ other.log = builder.log ++ [] := by
    rintro other ⟨hmetrics, hlog⟩
    rw [Metrics.join_empty, List.append_nil]
    exact ⟨hmetrics, hlog⟩
  cases event with
  | opened tag =>
      obtain rfl := openElement_ok h
      exact ⟨rfl, (List.append_nil _).symm⟩
  | attr name value =>
      obtain ⟨hmetrics, hlog⟩ := effect_of_addAttribute h
      exact ⟨hmetrics, hlog.trans (List.append_nil _).symm⟩
  | entered =>
      obtain rfl := Except.ok.inj h
      exact hsame (effect_of_enter builder)
  | selfClosed =>
      obtain rfl := Except.ok.inj h
      exact hsame (effect_of_selfClose builder)
  | text text => exact hsame (effect_of_contributeText h)
  | cdata text =>
      obtain ⟨hmetrics, hlog⟩ := effect_of_contributeText h
      exact ⟨hmetrics.trans (by simp [Metrics.countCdata, Metrics.join, counts]),
        hlog.trans (List.append_nil _).symm⟩
  | comment body =>
      obtain rfl := Except.ok.inj h
      exact ⟨by simp [Metrics.countComment, Metrics.join, counts], (List.append_nil _).symm⟩
  | instruction body =>
      obtain rfl := Except.ok.inj h
      exact ⟨by simp [Metrics.countInstruction, Metrics.join, counts], (List.append_nil _).symm⟩
  | declaration =>
      obtain rfl := Except.ok.inj h
      exact ⟨by simp [Metrics.countDeclaration, Metrics.join, counts], rfl⟩
  | closed found =>
      obtain rfl := Except.ok.inj h
      exact hsame (effect_of_close builder)

/-! ## Failures -/

end Builder

/-- A text that cannot be read is a whole number with too many digits, and is not kept as it
is. -/
theorem Converter.isLongInteger_of_not_reads {converter : Converter} {text : String}
    (h : ¬ converter.Reads text) :
    converter.settings.keepStrings.isTruthy = false ∧ IsLongInteger text := by
  by_cases hkeep : converter.settings.keepStrings.isTruthy = true
  · exact absurd ⟨.string text, if_pos hkeep⟩ h
  · refine ⟨Bool.eq_false_iff.2 hkeep, ?_⟩
    cases hvalue : Scalar.ofText text with
    | ok value =>
        refine absurd ⟨value, ?_⟩ h
        unfold scalar?
        rw [if_neg hkeep, hvalue]
    | error problem => exact Scalar.isLongInteger_of_ofText hvalue

theorem Converter.not_reads_of_isLongInteger {converter : Converter} {text : String}
    (hkeep : converter.settings.keepStrings.isTruthy = false) (h : IsLongInteger text) :
    ¬ converter.Reads text := by
  rintro ⟨value, hvalue⟩
  simp [scalar?, hkeep, Scalar.ofText_of_isLongInteger h] at hvalue

/-- Whether the text of an event is a whole number that has to be read and has too many
digits. -/
def Converter.Overflows (converter : Converter) (event : Event) : Prop :=
  converter.settings.keepStrings.isTruthy = false ∧
    ∃ text, event.scalar? = some text ∧ IsLongInteger text

namespace Builder

variable {converter : Converter} {ceiling : Option Nat} {builder : Builder} {entry : Entry}
  {failure : Failure}

theorem mem_textScalars {text own : String} (h : own ∈ textScalars text) : own = text := by
  unfold textScalars at h
  split at h
  · simp at h
  · exact List.mem_singleton.1 h

theorem overflows_of_contributeText {event : Event} {text : String}
    (hevent : event.scalar? = some text)
    (h : builder.contributeText converter text = .error failure) :
    failure = .integerTooLong ∧ converter.Overflows event := by
  obtain ⟨hfailure, own, hown, hreads⟩ := contributeText_error h
  obtain rfl := mem_textScalars hown
  obtain ⟨hkeep, hlong⟩ := Converter.isLongInteger_of_not_reads hreads
  exact ⟨hfailure, hkeep, own, hevent, hlong⟩

theorem overflows_of_addAttribute {name : String} {value : Option String}
    (h : builder.addAttribute converter name value = .error failure) :
    failure = .integerTooLong ∧ converter.Overflows (.attr name value) := by
  unfold addAttribute at h
  split at h
  · simp at h
  · cases value with
    | none => simp [Except.map] at h
    | some text =>
        rw [Option.elim_some] at h
        cases hscalar : converter.scalar? text with
        | ok found => simp [hscalar, Except.map] at h
        | error found =>
            obtain rfl : found = failure := by simpa [hscalar, Except.map] using h
            obtain ⟨hfailure, hreads⟩ := Converter.scalar?_error hscalar
            obtain ⟨hkeep, hlong⟩ := Converter.isLongInteger_of_not_reads hreads
            exact ⟨hfailure, hkeep, text, rfl, hlong⟩

/-- An event stops a conversion in two ways: its text is a number that cannot be read, or
the element that it opens is too deep. -/
theorem failure_of_apply (h : builder.apply converter ceiling entry = .error failure) :
    (failure = .integerTooLong ∧ converter.Overflows entry.event) ∨
      ∃ limit tag position, failure = .refused (.tooDeep limit tag position) := by
  obtain ⟨event, start, behind⟩ := entry
  cases event with
  | opened tag =>
      refine .inr ?_
      change builder.openElement converter ceiling tag start behind = _ at h
      unfold openElement at h
      dsimp only at h
      split at h
      · exact ⟨_, _, _, (Except.error.inj h).symm⟩
      · split at h
        · exact ⟨_, _, _, (Except.error.inj h).symm⟩
        · simp at h
  | attr name value => exact .inl (overflows_of_addAttribute h)
  | text text => exact .inl (overflows_of_contributeText rfl h)
  | cdata text => exact .inl (overflows_of_contributeText rfl h)
  | entered | selfClosed | comment | instruction | declaration | closed => simp [apply] at h

/-! ## Runs -/

/-- A run writes the records of declarations only, and if it has a result one for each
declaration that it counts. -/
theorem recorded_of_follow (fault : Option MarkupError) (entries : List Entry)
    (builder : Builder) :
    ∃ count,
      (builder.follow converter ceiling fault entries).log =
        builder.log ++ List.replicate count converter.skippedRecord ∧
      ∀ root metrics,
        (builder.follow converter ceiling fault entries).outcome = .ok (root, metrics) →
        metrics.declarations = builder.metrics.declarations + count := by
  induction entries generalizing builder with
  | nil =>
      refine ⟨0, ?_, ?_⟩
      · cases fault <;> simp [follow]
      · intro root metrics h
        cases fault with
        | some error => simp [follow] at h
        | none =>
            obtain ⟨-, rfl⟩ := Prod.mk.inj (Except.ok.inj h)
            rfl
  | cons entry rest ih =>
      rw [follow]
      cases happly : builder.apply converter ceiling entry with
      | error failure => exact ⟨0, by simp, by simp⟩
      | ok next =>
          obtain ⟨hmetrics, hlog⟩ := effect_of_apply happly
          obtain ⟨count, hrestLog, hrestCount⟩ := ih next
          have hown : ∃ own, converter.records entry.event =
              List.replicate own converter.skippedRecord ∧
              (builder.counts entry.event).declarations = own := by
            cases entry.event with
            | declaration => exact ⟨1, rfl, rfl⟩
            | _ => exact ⟨0, rfl, rfl⟩
          obtain ⟨own, hrecords, hcounts⟩ := hown
          refine ⟨own + count, ?_, ?_⟩
          · rw [hrestLog, hlog, hrecords, List.append_assoc, List.replicate_append_replicate]
          · intro root metrics h
            have hdeclarations :
                next.metrics.declarations = builder.metrics.declarations + own := by
              rw [hmetrics, ← hcounts]
              rfl
            rw [hrestCount root metrics h, hdeclarations, Nat.add_assoc]

/-- A run that fails has met a fault, an element that is too deep, or a number that it cannot
read. -/
theorem failure_of_follow {fault : Option MarkupError} {entries : List Entry} {builder : Builder}
    (h : (builder.follow converter ceiling fault entries).outcome = .error failure) :
    (∃ error, failure = .refused (.malformed error)) ∨
      (∃ limit tag position, failure = .refused (.tooDeep limit tag position)) ∨
      failure = .integerTooLong ∧ ∃ entry ∈ entries, converter.Overflows entry.event := by
  induction entries generalizing builder with
  | nil =>
      cases fault with
      | none => simp [follow] at h
      | some error => exact .inl ⟨error, (Except.error.inj h).symm⟩
  | cons entry rest ih =>
      rw [follow] at h
      cases happly : builder.apply converter ceiling entry with
      | error found =>
          rw [happly] at h
          obtain rfl := Except.error.inj h
          rcases failure_of_apply happly with ⟨hfailure, hoverflows⟩ | hdeep
          · exact .inr (.inr ⟨hfailure, entry, List.mem_cons_self, hoverflows⟩)
          · exact .inr (.inl hdeep)
      | ok next =>
          rw [happly] at h
          rcases ih h with hfault | hdeep | ⟨hfailure, other, hmem, hoverflows⟩
          · exact .inl hfault
          · exact .inr (.inl hdeep)
          · exact .inr (.inr ⟨hfailure, other, List.mem_cons_of_mem _ hmem, hoverflows⟩)

end Builder

/-- What comes of a document that is not too long, with its records, follows from its
events. -/
theorem Converter.convert_eq_conclude {converter : Converter} {text : String}
    (hlength : converter.exceededLimit? text = none) :
    converter.convert text = converter.conclude ((converter.machine text).builder.follow converter
      converter.ceiling (Trace.ofText text).fault (Trace.ofText text).entries) := by
  rw [convert_eq_convertWithStack, convertWithStack, hlength]
  exact congrArg converter.conclude (Machine.run_eq_follow ..)

/-- A document is accepted if it is not too long, has no fault, and all of its events can be
applied. -/
theorem Converter.applyAll_of_convert {converter : Converter} {text : String}
    {found : Conversion} (h : (converter.convert text).outcome = .ok found) :
    converter.exceededLimit? text = none ∧ (Trace.ofText text).fault = none ∧
      ∃ built, (converter.machine text).builder.applyAll converter converter.ceiling
        (Trace.ofText text).entries = .ok built ∧
        found = converter.conversion (built.root, built.metrics) := by
  cases hlength : converter.exceededLimit? text with
  | some limit => simp [convert_tooLong hlength] at h
  | none =>
      rw [convert_outcome hlength] at h
      obtain ⟨made, hfollow, rfl⟩ := exists_of_map_ok h
      have hfault := Builder.fault_of_follow hfollow
      rw [hfault, Builder.outcome_follow] at hfollow
      split at hfollow
      · simp at hfollow
      · next built hbuilt =>
          obtain rfl := Except.ok.inj hfollow
          exact ⟨rfl, hfault, built, hbuilt, rfl⟩

/-- What comes of a document whose events can all be applied. -/
theorem Converter.convert_of_applyAll {converter : Converter} {text : String} {built : Builder}
    (hlength : converter.exceededLimit? text = none) (hfault : (Trace.ofText text).fault = none)
    (h : (converter.machine text).builder.applyAll converter converter.ceiling
      (Trace.ofText text).entries = .ok built) :
    (converter.convert text).outcome = .ok (converter.conversion (built.root, built.metrics)) := by
  rw [convert_outcome hlength, Builder.outcome_follow, h, hfault]
  rfl

end XmlToJson
