import XmlToJson.Proofs.Effects
import XmlToJson.Proofs.Seams

/-!
# Markup that is skipped

Comments, processing instructions, empty sections and declarations can be put into a document
wherever markup begins, and in front of and behind the whole document.  The document is still
accepted then, with the same data, and only the counters of its characters and of what was put in
are different (`convert_of_inserted`).

## Strategy

* **What can be put in.**  `Transparent` has one constructor for each sort of markup, with the
  counter that goes up.  Wherever it is read it is one event, and that adds nothing to the data
  (`Transparent.read`, `Event.skipped?`).
* **Where it can be put in.**  `InsertionPoint` is in front of a text, behind it, or in front of a
  `<` that a reader between two tags comes to, at any depth.  The reader of the longer text meets
  the same events up to the place, since it reads the same characters in front of the same next
  character; then the event that is put in; and then the same events again, since it stands in front
  of the same characters (`hasOneMore_start`, `hasOneMore_markup`, `hasOneMore_finish`).  So the
  longer text has the events of the text and one more among them (`InsertionPoint.hasOneMore`).
* **Builders.**  What is built does not depend on the counters and the records (`apply_recounted`),
  so builders that differ in these only do the same with the same events (`Builder.Matches`,
  `Matches.applyAll`).  The event that is put in is counted on top and changes nothing else
  (`Matches.skip`).

Counting is an addition in each of the counters but for the depth, which is a maximum, so what is
counted on top can be moved past everything else (`join_right_comm`).  The characters of the longer
text are counted before it begins (`Converter.matches_machine`).
-/

namespace XmlToJson

/-! ## What can be put in -/

/-- Whether characters are a piece of markup that is skipped, and what is counted for it. -/
inductive Transparent : Metrics → List Char → Prop where
  | comment {body : String} : ¬ "-->".toList <:+: body.toList →
      Transparent { comments := 1 } ('<' :: '!' :: '-' :: '-' :: (body.toList ++ "-->".toList))
  | instruction {body : String} : ¬ "?>".toList <:+: body.toList →
      Transparent { instructions := 1 } ('<' :: '?' :: (body.toList ++ "?>".toList))
  | emptySection :
      Transparent { cdataSections := 1 }
        ('<' :: '!' :: '[' :: ("CDATA".toList ++ '[' :: "]]>".toList))
  | declaration {first : Char} {body : List Char} : BeginsDeclaration first → Groups body →
      Transparent { declarations := 1 } ('<' :: '!' :: first :: (body ++ ['>']))

/-- What is counted for an event that adds nothing to the data. -/
def Event.skipped? : Event → Option Metrics
  | .comment _ => some { comments := 1 }
  | .instruction _ => some { instructions := 1 }
  | .cdata value => if value = "" then some { cdataSections := 1 } else none
  | .declaration => some { declarations := 1 }
  | _ => none

/-- Markup that is skipped is one event, wherever it is read. -/
theorem Transparent.read {counted : Metrics} {inserted : List Char}
    (h : Transparent counted inserted) :
    ∃ chars event, inserted = '<' :: chars ∧ event.skipped? = some counted ∧
      ∀ {enclosing : Option String} {rest : List Char} (start : Cursor),
        start.rest = chars ++ rest → ∃ position stop,
          Scan.markupReading enclosing start = .ok ⟨event, position, none⟩ stop ∧
            stop.rest = rest := by
  have hnothing : Blanks [] := by decide
  cases h with
  | @comment body hbody =>
      refine ⟨_, .comment body, rfl, rfl, fun start hstart => ?_⟩
      exact Scan.markupReading_comment hnothing hbody (by rw [hstart]; simp)
  | @instruction body hbody =>
      refine ⟨_, .instruction body, rfl, rfl, fun start hstart => ?_⟩
      exact Scan.markupReading_instruction hnothing hbody (by rw [hstart]; simp)
  | emptySection =>
      refine ⟨_, .cdata "", rfl, rfl, fun start hstart => ?_⟩
      exact Scan.markupReading_cdata hnothing (by decide) (by rw [hstart]; simp)
  | @declaration first body hfirst hbody =>
      refine ⟨_, .declaration, rfl, rfl, fun start hstart => ?_⟩
      exact Scan.markupReading_declaration hfirst hbody (by rw [hstart]; simp)

theorem Nest.after_of_skipped {event : Event} {counted : Metrics}
    (h : event.skipped? = some counted) (nest : Nest) : nest.after event = nest := by
  cases event with
  | comment | instruction | cdata | declaration => rfl
  | opened | attr | entered | selfClosed | text | closed => simp [Event.skipped?] at h

/-! ## Where it can be put in -/

/-- Where markup can be put into a text: in front of it, behind it, and in front of every `<`
that a reader between two tags comes to. -/
inductive InsertionPoint (text : String) : List Char → List Char → Prop where
  | start : InsertionPoint text [] text.toList
  | finish : InsertionPoint text text.toList []
  | markup {before rest skipped : List Char} {entries : List Entry} {tags : List String}
      {cursor : Cursor} :
      text.toList = before ++ '<' :: rest →
      (Reader.ofText text).Advances entries (.between tags cursor) →
      cursor.rest = skipped ++ '<' :: rest →
      (∀ c ∈ skipped, (Scope.inside tags).skips c = true) →
      InsertionPoint text before ('<' :: rest)

namespace Reader

variable {tags : List String} {cursor other : Cursor} {rest : List Char}

/-- What is skipped in front of markup makes no difference. -/
theorem trace_of_faces (hcursor : Faces (Scope.inside tags).skips cursor ('<' :: rest))
    (hother : Faces (Scope.inside tags).skips other ('<' :: rest))
    (hfault : (between tags cursor).trace.fault = none) :
    (between tags other).trace.fault = none ∧
      (between tags other).trace.entries.map (·.event) =
        (between tags cursor).trace.entries.map (·.event) := by
  obtain ⟨behind, hbehind, hnext⟩ := nextReading_less hcursor
  obtain ⟨start, hstart, hnextOther⟩ := nextReading_less hother
  rw [map_apply] at hnext hnextOther
  cases hmarkup : Scan.markupReading tags.head? behind with
  | error error stop =>
      rw [hmarkup] at hnext
      rw [trace_of_error hnext] at hfault
      simp at hfault
  | ok reading stop =>
      rw [hmarkup] at hnext
      obtain ⟨used, hused, hecho⟩ := Scan.echoes_markupReading tags.head? hmarkup
      obtain ⟨found, last, hfound, hplain, hlast⟩ :=
        hecho (hstart.trans (hbehind.symm.trans hused)) (.inr rfl)
      obtain ⟨hevent, hpending⟩ := Prod.mk.inj hplain
      rw [hfound] at hnextOther
      rw [trace_of_step hnext] at hfault ⊢
      rw [trace_of_step hnextOther]
      have halike : ((between tags cursor).after reading stop).Alike
          ((between tags other).after found last) :=
        ⟨congrArg (Nest.after ⟨tags, none⟩) hevent, hpending⟩
      obtain ⟨hnone, hevents⟩ := trace_of_alike hfault (holdsInTag_after hnext) halike hlast
      refine ⟨hnone, ?_⟩
      rw [List.map_cons, List.map_cons, hevents]
      exact congrArg (· :: _) hevent

/-- A reader that comes to markup that is skipped meets its event, and then what follows. -/
theorem Advances.skips {text : String} {met : List Entry} {behind inserted : List Char}
    {counted : Metrics} {second : List Event}
    (h : (ofText text).Advances met (between tags cursor))
    (hinserted : Transparent counted inserted)
    (hfaces : Faces (Scope.inside tags).skips cursor (inserted ++ behind))
    (hbehind : ∀ stop : Cursor, stop.rest = behind → (between tags stop).trace.fault = none ∧
      (between tags stop).trace.entries.map (·.event) = second) :
    (Trace.ofText text).fault = none ∧ ∃ event, event.skipped? = some counted ∧
      (Trace.ofText text).entries.map (·.event) = met.map (·.event) ++ event :: second := by
  obtain ⟨chars, event, rfl, hevent, hread⟩ := hinserted.read
  obtain ⟨entry, stop, hadvances, hentry, hstop⟩ :=
    advances_markup hfaces hread (Nest.after_of_skipped hevent)
  obtain ⟨hfault, hsecond⟩ := hbehind stop hstop
  rw [Trace.ofText, (h.trans hadvances).trace]
  refine ⟨hfault, event, hevent, ?_⟩
  rw [List.map_append, List.map_append, hsecond, List.append_assoc, ← hentry]
  rfl

end Reader

/-- Whether a longer text has the events of a text and one more among them, which is skipped
and counted as given. -/
def HasOneMore (counted : Metrics) (text longer : String) : Prop :=
  (Trace.ofText longer).fault = none ∧ ∃ first second event,
    (Trace.ofText text).entries.map (·.event) = first ++ second ∧
      event.skipped? = some counted ∧
      (Trace.ofText longer).entries.map (·.event) = first ++ event :: second

section OneMore

variable {text : String} {before behind inserted : List Char} {counted : Metrics}

theorem rest_ofText_ofList (chars : List Char) :
    (Reader.ofText (String.ofList chars)).cursor.rest = chars := String.toList_ofList

theorem alike_ofText (first second : String) :
    (Reader.ofText first).Alike (.ofText second) := ⟨rfl, rfl⟩

theorem hasOneMore_start (hinserted : Transparent counted inserted)
    (hfault : (Trace.ofText text).fault = none) :
    HasOneMore counted text (String.ofList (inserted ++ text.toList)) := by
  obtain ⟨hlonger, event, hevent, hsplit⟩ :=
    Reader.Advances.skips (.refl _) hinserted (.of_rest (rest_ofText_ofList _)) fun stop hstop =>
      Reader.trace_of_alike hfault (fun _ => rfl) ⟨rfl, rfl⟩ hstop
  exact ⟨hlonger, [], _, event, rfl, hevent, hsplit⟩

theorem hasOneMore_finish (hinserted : Transparent counted inserted)
    (hfault : (Trace.ofText text).fault = none) :
    HasOneMore counted text (String.ofList (text.toList ++ inserted)) := by
  obtain ⟨met, stop, ignored, hadvances, hmet, hstop, hignored⟩ :=
    Reader.advances_of_trace hfault (fun _ => rfl)
      (alike_ofText text (String.ofList (text.toList ++ inserted))) (rest_ofText_ofList _)
  rw [← List.append_nil inserted] at hstop
  have hfaces := (Faces.of_rest hstop).of_append (skips_document hignored)
  obtain ⟨hlonger, event, hevent, hsplit⟩ :=
    hadvances.skips hinserted hfaces fun last hlast => by
      have hend : (Reader.between [] last).trace = ⟨[], none⟩ :=
        Reader.trace_of_end (nextReading_end (.of_rest hlast))
      rw [hend]
      exact ⟨rfl, rfl⟩
  exact ⟨hlonger, met.map (·.event), [], event, by rw [List.append_nil, hmet]; rfl, hevent, hsplit⟩

/-- In front of a `<` that is come to between two tags one event more can be met. -/
theorem hasOneMore_markup {rest skipped : List Char} {entries : List Entry} {tags : List String}
    {cursor : Cursor} (htext : text.toList = before ++ '<' :: rest)
    (hadvances : (Reader.ofText text).Advances entries (.between tags cursor))
    (hcursor : cursor.rest = skipped ++ '<' :: rest)
    (hskipped : ∀ c ∈ skipped, (Scope.inside tags).skips c = true)
    (hinserted : Transparent counted inserted) (hfault : (Trace.ofText text).fault = none) :
    HasOneMore counted text (String.ofList (before ++ inserted ++ '<' :: rest)) := by
  -- The characters in front of the place are those that were read and those that are skipped.
  obtain ⟨used, hused, hechoes⟩ := hadvances.echoes
  have hfront : before = used ++ skipped := by
    refine (List.append_left_inj ('<' :: rest)).1 ?_
    rw [← htext, List.append_assoc, ← hcursor]
    exact hused
  have hrest : (Reader.ofText (String.ofList (before ++ inserted ++ '<' :: rest))).cursor.rest =
      used ++ (skipped ++ (inserted ++ '<' :: rest)) := by
    rw [rest_ofText_ofList, hfront]
    simp only [List.append_assoc]
  have hhead : (skipped ++ (inserted ++ '<' :: rest)).head? =
      (Reader.between tags cursor).cursor.rest.head? := by
    obtain ⟨chars, event, rfl, -, -⟩ := hinserted.read
    change _ = cursor.rest.head?
    rw [hcursor]
    cases skipped <;> rfl
  obtain ⟨met, stop, hmet, hevents, hstopAlike, hstop⟩ := hechoes (alike_ofText ..) hrest hhead
  rw [hstopAlike.eq_between] at hmet
  rw [Trace.ofText, hadvances.trace] at hfault
  obtain ⟨hlonger, event, hevent, hsplit⟩ :=
    hmet.skips hinserted ((Faces.of_rest hstop).of_append hskipped) fun last hlast =>
      Reader.trace_of_faces ((Faces.of_rest hcursor).of_append hskipped) (.of_rest hlast) hfault
  rw [hevents] at hsplit
  refine ⟨hlonger, _, _, event, ?_, hevent, hsplit⟩
  rw [Trace.ofText, hadvances.trace, List.map_append]

/-- The events of a text with markup that is put in are those of the text itself, with one
event more. -/
theorem InsertionPoint.hasOneMore (h : InsertionPoint text before behind)
    (hinserted : Transparent counted inserted) (hfault : (Trace.ofText text).fault = none) :
    HasOneMore counted text (String.ofList (before ++ inserted ++ behind)) := by
  cases h with
  | start => exact hasOneMore_start hinserted hfault
  | finish =>
      rw [List.append_nil]
      exact hasOneMore_finish hinserted hfault
  | markup htext hadvances hcursor hskipped =>
      exact hasOneMore_markup htext hadvances hcursor hskipped hinserted hfault

end OneMore

/-! ## Builders that differ in their counters -/

namespace Metrics

theorem join_comm (first second : Metrics) : first.join second = second.join first := by
  simp [join, Nat.add_comm, Nat.max_comm]

theorem join_right_comm (first second third : Metrics) :
    (first.join second).join third = (first.join third).join second := by
  rw [join_assoc, join_comm second, ← join_assoc]

end Metrics

namespace Builder

/-- The builder with other counters and records. -/
def recounted (builder : Builder) (metrics : Metrics) (log : List LogRecord) : Builder :=
  { builder with metrics := metrics, log := log }

section Recounted

variable {converter : Converter} {ceiling : Option Nat} {builder next : Builder}
  {metrics : Metrics} {log : List LogRecord}

theorem contribute_recounted (key : String) (value : Value) :
    (builder.recounted metrics log).contribute key value =
      (builder.contribute key value).recounted metrics log := by
  obtain ⟨root, - | ⟨⟨tag, object⟩, outer⟩, inTag, counted, written⟩ := builder
  · rfl
  · rfl

theorem enter_recounted :
    (builder.recounted metrics log).enter = builder.enter.recounted metrics log := by
  obtain ⟨root, stack, - | frame, counted, written⟩ := builder
  · rfl
  · rfl

theorem selfClose_recounted :
    (builder.recounted metrics log).selfClose = builder.selfClose.recounted metrics log := by
  obtain ⟨root, stack, - | ⟨tag, object⟩, counted, written⟩ := builder
  · rfl
  · exact @contribute_recounted ⟨root, stack, none, counted, written⟩ metrics log tag _

theorem close_recounted :
    (builder.recounted metrics log).close = builder.close.recounted metrics log := by
  obtain ⟨root, - | ⟨⟨tag, object⟩, outer⟩, inTag, counted, written⟩ := builder
  · rfl
  · exact @contribute_recounted ⟨root, outer, inTag, counted, written⟩ metrics log tag _

theorem contributeText_recounted {text : String}
    (h : builder.contributeText converter text = .ok next) :
    (builder.recounted metrics log).contributeText converter text =
      .ok (next.recounted metrics log) := by
  unfold contributeText at h ⊢
  split at h
  · next hempty =>
      obtain rfl := Except.ok.inj h
      exact if_pos hempty
  · next hempty =>
      obtain ⟨value, hvalue, rfl⟩ := exists_of_map_ok h
      rw [if_neg hempty, hvalue]
      exact congrArg Except.ok (contribute_recounted _ value)

theorem addAttribute_recounted {name : String} {value : Option String}
    (h : builder.addAttribute converter name value = .ok next) :
    ∃ counted, (builder.recounted metrics log).addAttribute converter name value =
      .ok (next.recounted counted log) := by
  obtain ⟨root, stack, - | ⟨tag, object⟩, earlier, written⟩ := builder
  · obtain rfl := Except.ok.inj h
    exact ⟨metrics, rfl⟩
  · obtain ⟨found, hfound, rfl⟩ := exists_of_map_ok h
    refine ⟨metrics.countAttribute, ?_⟩
    unfold addAttribute recounted
    dsimp only
    rw [hfound]
    rfl

theorem openElement_recounted {tag : String} {start behind otherStart otherBehind : Position}
    (h : builder.openElement converter ceiling tag start behind = .ok next) :
    ∃ counted,
      (builder.recounted metrics log).openElement converter ceiling tag otherStart otherBehind =
        .ok (next.recounted counted log) := by
  refine ⟨metrics.countElement (builder.stack.length + 1), ?_⟩
  unfold openElement at h ⊢
  dsimp only [recounted] at h ⊢
  split at h
  · simp at h
  · split at h
    · simp at h
    · next hbelow hceiling =>
        obtain rfl := Except.ok.inj h
        rw [if_neg hbelow, if_neg hceiling]

/-- What is built does not depend on the counters, the records and the places of events. -/
theorem apply_recounted {entry other : Entry} (hevent : other.event = entry.event)
    (h : builder.apply converter ceiling entry = .ok next) :
    ∃ counted written, (builder.recounted metrics log).apply converter ceiling other =
      .ok (next.recounted counted written) := by
  obtain ⟨event, start, behind⟩ := entry
  obtain ⟨found, otherStart, otherBehind⟩ := other
  obtain rfl : found = event := hevent
  cases found with
  | opened tag =>
      obtain ⟨counted, hopened⟩ := openElement_recounted h
      exact ⟨counted, log, hopened⟩
  | attr name value =>
      obtain ⟨counted, hadded⟩ := addAttribute_recounted h
      exact ⟨counted, log, hadded⟩
  | entered =>
      obtain rfl := Except.ok.inj h
      exact ⟨metrics, log, congrArg Except.ok enter_recounted⟩
  | selfClosed =>
      obtain rfl := Except.ok.inj h
      exact ⟨metrics, log, congrArg Except.ok selfClose_recounted⟩
  | text value => exact ⟨metrics, log, contributeText_recounted h⟩
  | cdata value =>
      exact ⟨metrics.countCdata, log, @contributeText_recounted converter
        { builder with metrics := builder.metrics.countCdata } next metrics.countCdata log value h⟩
  | comment body =>
      obtain rfl := Except.ok.inj h
      exact ⟨_, _, rfl⟩
  | instruction body =>
      obtain rfl := Except.ok.inj h
      exact ⟨_, _, rfl⟩
  | declaration =>
      obtain rfl := Except.ok.inj h
      exact ⟨_, _, rfl⟩
  | closed found =>
      obtain rfl := Except.ok.inj h
      exact ⟨metrics, log, congrArg Except.ok close_recounted⟩

end Recounted

/-- An event that is skipped is counted, and nothing else. -/
theorem apply_skipped {converter : Converter} {ceiling : Option Nat} {entry : Entry}
    {counted : Metrics} (hevent : entry.event.skipped? = some counted) (builder : Builder) :
    ∃ log, builder.apply converter ceiling entry =
      .ok (builder.recounted (builder.metrics.join counted) log) := by
  obtain ⟨event, start, behind⟩ := entry
  cases event with
  | comment body =>
      obtain rfl := Option.some.inj hevent
      exact ⟨builder.log, by simp [apply, recounted, Metrics.countComment, Metrics.join]⟩
  | instruction body =>
      obtain rfl := Option.some.inj hevent
      exact ⟨builder.log, by simp [apply, recounted, Metrics.countInstruction, Metrics.join]⟩
  | cdata value =>
      obtain ⟨rfl, rfl⟩ : value = "" ∧ { cdataSections := 1 } = counted := by
        simpa [Event.skipped?] using hevent
      exact ⟨builder.log, by
        simp [apply, contributeText, recounted, Metrics.countCdata, Metrics.join]⟩
  | declaration =>
      obtain rfl := Option.some.inj hevent
      exact ⟨builder.log ++ [converter.skippedRecord], by
        simp [apply, recounted, Metrics.countDeclaration, Metrics.join, Converter.skippedRecord]⟩
  | opened | attr | entered | selfClosed | text | closed => simp [Event.skipped?] at hevent

/-- Whether two builders have built the same, and the second has counted `extra` on top. -/
def Matches (extra : Metrics) (first second : Builder) : Prop :=
  ∃ log, second = first.recounted (first.metrics.join extra) log

variable {extra counted : Metrics} {first second : Builder} {converter : Converter}
  {ceiling : Option Nat}

theorem Matches.apply (h : first.Matches extra second) {entry other : Entry}
    (hevent : other.event = entry.event) {next : Builder}
    (happly : first.apply converter ceiling entry = .ok next) :
    ∃ made, second.apply converter ceiling other = .ok made ∧ next.Matches extra made := by
  obtain ⟨log, rfl⟩ := h
  obtain ⟨total, written, hmade⟩ :=
    @apply_recounted converter ceiling first next (first.metrics.join extra) log _ _ hevent happly
  obtain ⟨hnext, -⟩ := effect_of_apply happly
  obtain ⟨htotal, -⟩ := effect_of_apply hmade
  refine ⟨_, hmade, written, ?_⟩
  -- Both count the same for the event, so the difference stays.
  have hextra : total = next.metrics.join extra := by
    rw [hnext, Metrics.join_right_comm, ← hevent]
    exact htotal
  rw [hextra]

/-- Builders that match still do so after the same events. -/
theorem Matches.applyAll {entries others : List Entry} (h : first.Matches extra second)
    (hevents : others.map (·.event) = entries.map (·.event)) {built : Builder}
    (happly : first.applyAll converter ceiling entries = .ok built) :
    ∃ made, second.applyAll converter ceiling others = .ok made ∧ built.Matches extra made := by
  induction entries generalizing first second others with
  | nil =>
      obtain rfl := List.map_eq_nil_iff.1 hevents
      obtain rfl := Except.ok.inj happly
      exact ⟨second, rfl, h⟩
  | cons entry rest ih =>
      obtain ⟨other, more, rfl, hevent, hmore⟩ := List.map_eq_cons_iff.1 hevents
      obtain ⟨next, hnext, hrest⟩ := applyAll_cons_ok happly
      obtain ⟨made, hmade, hmatches⟩ := h.apply hevent hnext
      obtain ⟨last, hlast, hbuilt⟩ := ih hmatches hmore hrest
      refine ⟨last, ?_, hbuilt⟩
      rw [Builder.applyAll, hmade]
      exact hlast

theorem Matches.skip (h : first.Matches extra second) {entry : Entry}
    (hevent : entry.event.skipped? = some counted) :
    ∃ made, second.apply converter ceiling entry = .ok made ∧
      first.Matches (extra.join counted) made := by
  obtain ⟨log, rfl⟩ := h
  obtain ⟨written, happly⟩ :=
    apply_skipped hevent (first.recounted (first.metrics.join extra) log)
  refine ⟨_, happly, written, ?_⟩
  rw [← Metrics.join_assoc]
  rfl

/-- Where an event that is skipped comes between the same events, it is counted on top. -/
theorem Matches.applyAll_inserted {entries others : List Entry} {front back : List Event}
    {event : Event} (h : first.Matches extra second) (hevent : event.skipped? = some counted)
    (hentries : entries.map (·.event) = front ++ back)
    (hothers : others.map (·.event) = front ++ event :: back) {built : Builder}
    (happly : first.applyAll converter ceiling entries = .ok built) :
    ∃ made, second.applyAll converter ceiling others = .ok made ∧
      built.Matches (extra.join counted) made := by
  obtain ⟨before, behind, rfl, rfl, rfl⟩ := List.map_eq_append_iff.1 hentries
  obtain ⟨beforeOther, rest, rfl, hbefore, hrest⟩ := List.map_eq_append_iff.1 hothers
  obtain ⟨entry, behindOther, rfl, rfl, hbehind⟩ := List.map_eq_cons_iff.1 hrest
  obtain ⟨between, hbetween, hbuilt⟩ := applyAll_append_ok happly
  obtain ⟨reached, hreached, hmatches⟩ := h.applyAll hbefore hbetween
  obtain ⟨skipped, hskipped, hcounted⟩ :=
    @Matches.skip _ _ _ _ converter ceiling hmatches entry hevent
  obtain ⟨made, hmade, hlast⟩ := hcounted.applyAll hbehind hbuilt
  refine ⟨made, ?_, hlast⟩
  rw [applyAll_append, hreached]
  simp only [Builder.applyAll, hskipped]
  exact hmade

end Builder

/-! ## Conversions -/

theorem InsertionPoint.toList_eq {text : String} {before behind : List Char}
    (h : InsertionPoint text before behind) : text.toList = before ++ behind := by
  cases h with
  | start => rfl
  | finish => rw [List.append_nil]
  | markup htext => exact htext

/-- Characters are counted besides what is counted for a piece of markup. -/
theorem Transparent.join_characters {counted : Metrics} {inserted : List Char}
    (h : Transparent counted inserted) (count : Nat) :
    ({ characters := count } : Metrics).join counted = { counted with characters := count } := by
  cases h <;> simp [Metrics.join]

/-- A conversion counts the characters of its text before it begins. -/
theorem Converter.matches_machine {converter : Converter} {text longer : String} {count : Nat}
    (hlength : longer.length = text.length + count) :
    (converter.machine text).builder.Matches { characters := count }
      (converter.machine longer).builder := by
  refine ⟨[converter.startedRecord longer.length], ?_⟩
  simp only [machine, Builder.recounted, Metrics.join, hlength]
  rfl

/-- A conversion of the longer text comes to the same end with another count. -/
theorem InsertionPoint.applyAll {converter : Converter} {text : String} {built : Builder}
    {before behind inserted : List Char} {counted : Metrics} (h : InsertionPoint text before behind)
    (hinserted : Transparent counted inserted) (hfault : (Trace.ofText text).fault = none)
    (hbuilt : (converter.machine text).builder.applyAll converter converter.ceiling
      (Trace.ofText text).entries = .ok built) :
    (Trace.ofText (String.ofList (before ++ inserted ++ behind))).fault = none ∧
      ∃ log, (converter.machine (String.ofList (before ++ inserted ++ behind))).builder.applyAll
        converter converter.ceiling
        (Trace.ofText (String.ofList (before ++ inserted ++ behind))).entries =
          .ok (built.recounted
            (built.metrics.join { counted with characters := inserted.length }) log) := by
  obtain ⟨hlonger, first, second, event, hevents, hevent, hsplit⟩ :=
    h.hasOneMore hinserted hfault
  have hcount : (String.ofList (before ++ inserted ++ behind)).length =
      text.length + inserted.length := by
    rw [← String.length_toList, ← String.length_toList, String.toList_ofList, h.toList_eq]
    simp only [List.length_append]
    omega
  obtain ⟨made, hmade, log, rfl⟩ :=
    (Converter.matches_machine hcount).applyAll_inserted hevent hevents hsplit hbuilt
  rw [hinserted.join_characters] at hmade
  exact ⟨hlonger, log, hmade⟩

/-- Markup that is skipped can be put into every document that is accepted.  The result has the
same data, and only the new characters and the new piece of markup are counted on top. -/
theorem convert_of_inserted {converter : Converter} {text : String} {found : Conversion}
    {before behind inserted : List Char} {counted : Metrics}
    (haccepted : (converter.convert text).outcome = .ok found)
    (hplace : InsertionPoint text before behind) (hinserted : Transparent counted inserted)
    (hlength : converter.exceededLimit? (String.ofList (before ++ inserted ++ behind)) = none) :
    (converter.convert (String.ofList (before ++ inserted ++ behind))).outcome =
      .ok { found with
        metrics := found.metrics.join { counted with characters := inserted.length } } := by
  obtain ⟨-, hfault, built, hbuilt, rfl⟩ := Converter.applyAll_of_convert haccepted
  obtain ⟨hlonger, log, hmade⟩ := hplace.applyAll hinserted hfault hbuilt
  rw [Converter.convert_of_applyAll hlength hlonger hmade]
  rfl

/-- A declaration with a quoted `<` and a group is put in front of the inner of two
elements. -/
theorem convert_of_inserted_nested :
    ∃ found, (({} : Converter).convert "<a><b/></a>").outcome = .ok found ∧
      (({} : Converter).convert "<a><!D '<'<x>><b/></a>").outcome = .ok { found with
        metrics := found.metrics.join { declarations := 1, characters := 11 } } := by
  have haccepted : (({} : Converter).convert "<a><b/></a>").outcome.toOption.isSome = true := by
    decide +kernel
  cases hconvert : (({} : Converter).convert "<a><b/></a>").outcome with
  | error failure => simp [hconvert, Except.toOption] at haccepted
  | ok found =>
      have hplace : InsertionPoint "<a><b/></a>" "<a>".toList ('<' :: "b/></a>".toList) :=
        @InsertionPoint.markup _ _ _ [] _ ["a"] _ rfl
          (.step (by rfl) (.step (by rfl) (.refl _))) rfl (by simp)
      have hgroups : Groups " '<'<x>".toList :=
        .plain (by decide) (@Groups.quoted '\'' ['<'] _ (by decide) (by decide)
          (@Groups.group ['x'] [] (.plain (by decide) .nil) .nil))
      have hinserted : Transparent { declarations := 1 }
          ('<' :: '!' :: 'D' :: (" '<'<x>".toList ++ ['>'])) := .declaration (by decide) hgroups
      have htext : String.ofList ("<a>".toList ++
          '<' :: '!' :: 'D' :: (" '<'<x>".toList ++ ['>']) ++ '<' :: "b/></a>".toList) =
            "<a><!D '<'<x>><b/></a>" := rfl
      have hlonger := convert_of_inserted hconvert hplace hinserted rfl
      rw [htext] at hlonger
      exact ⟨found, rfl, hlonger⟩

end XmlToJson
