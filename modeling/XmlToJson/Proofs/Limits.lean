import XmlToJson.Proofs.Acceptance
import XmlToJson.Proofs.Effects

/-!
# Limits are guards

Two limits can be set: how deep elements may nest and how long a document may be.  Neither of them
changes what a document is converted to.  A limit is a guard: a conversion that keeps within it
comes to the same end as one with a larger limit, and one that does not is refused for the first
thing that is beyond it (`limits_are_guards`).

## Strategy

* **What is opened.**  `openings` lists the elements that a conversion opens, each with its level,
  in the order of the document.  They are the ones that are counted, and the greatest of their
  levels is the depth that is reached (`counted_of_applyAll`); none of them is too deep for the
  settings (`level_of_mem_openings`).
* **Two limits on the depth.**  The invariant that carries the comparison is that the nest is never
  deeper than the smaller one.  Then an event does the same under both limits, or it opens an
  element, and this stands exactly one level below the limit (`apply_depthLimited`), so that it is
  the first one above the limit (`FirstAbove`) and the one that is refused (`openElement_refused`).
  Comments, sections, declarations and close tags leave the nest as deep as it was or make it less
  deep (`depth_after_le`).  `follow_depthLimited` is the induction on the events.
* **The limit on the length** is looked at before anything is read, and no event looks at it
  (`follow_lengthLimited`).  A document that keeps within it is converted as if there were none
  (`convert_lengthLimited`).

Limits are numbers of three kinds, and a limit may be no number at all, so they are compared with
levels by the comparison of the settings and not by an order of their own (`isBelow_level`).
-/

namespace XmlToJson

/-! ## Levels -/

namespace Nest

/-- The number of elements that are open, the one whose tag is being read included. -/
def depth (nest : Nest) : Nat :=
  nest.openTags.length + nest.tag.toList.length

theorem depth_after_opened (nest : Nest) (tag : String) :
    (nest.after (.opened tag)).depth = nest.openTags.length + 1 := rfl

/-- Only an opening tag goes deeper. -/
theorem depth_after_le {event : Event} (hevent : ∀ tag, event ≠ .opened tag) (nest : Nest) :
    (nest.after event).depth ≤ nest.depth := by
  obtain ⟨openTags, tag⟩ := nest
  cases event with
  | opened tag => exact absurd rfl (hevent tag)
  | entered => simp [after, depth, Nat.add_comm]
  | selfClosed => simp [after, depth]
  | closed found => simp [after, depth]
  | attr | text | cdata | comment | instruction | declaration => exact Nat.le_refl _

end Nest

/-! ## The elements that a conversion opens -/

/-- An element that is opened: its name, its level and where its name starts. -/
structure Opening where
  tag : String
  level : Nat
  start : Position
  deriving DecidableEq, Repr

namespace Builder

/-- The element that an event opens. -/
def opening? (builder : Builder) (entry : Entry) : Option Opening :=
  match entry.event with
  | .opened tag => some ⟨tag, builder.stack.length + 1, entry.start⟩
  | _ => none

/-- The elements that are opened by events, up to the first failure. -/
def openings (converter : Converter) (ceiling : Option Nat) : List Entry → Builder → List Opening
  | [], _ => []
  | entry :: rest, builder =>
      match builder.apply converter ceiling entry with
      | .error _ => []
      | .ok next => (builder.opening? entry).toList ++ openings converter ceiling rest next

end Builder

namespace Converter

/-- The elements that a conversion opens, in the order of the document. -/
def openings (converter : Converter) (text : String) : List Opening :=
  match converter.exceededLimit? text with
  | some _ => []
  | none =>
      (converter.machine text).builder.openings converter converter.ceiling
        (Trace.ofText text).entries

/-- The converter with another limit on the depth of elements. -/
def depthLimited (converter : Converter) (limit : Nat) : Converter :=
  { converter with settings := { converter.settings with maxNestingDepth := .integer limit } }

/-- The converter with another limit on the length of documents. -/
def lengthLimited (converter : Converter) (limit : Int) : Converter :=
  { converter with settings := { converter.settings with maxInputLength := some (.integer limit) } }

/-- The converter without a limit on the length of documents. -/
def lengthUnlimited (converter : Converter) : Converter :=
  { converter with settings := { converter.settings with maxInputLength := none } }

end Converter

/-! ### What is counted are the elements that are opened -/

namespace Builder

variable {converter : Converter} {ceiling : Option Nat} {builder next : Builder} {entry : Entry}

/-- An event that is not without a tag opens one. -/
theorem exists_tag {event : Event} (hevent : ¬ ∀ tag, event ≠ .opened tag) :
    ∃ tag, event = .opened tag := by
  simpa using Classical.not_forall.1 hevent

theorem opening?_of_opened {tag : String} (hevent : entry.event = .opened tag) :
    builder.opening? entry = some ⟨tag, builder.stack.length + 1, entry.start⟩ := by
  simp [opening?, hevent]

theorem opening?_of_not_opened (hevent : ∀ tag, entry.event ≠ .opened tag) :
    builder.opening? entry = none := by
  unfold opening?
  split
  · next tag htag => exact absurd htag (hevent tag)
  · rfl

/-- An event counts the element that it opens, and no other. -/
theorem counted_of_apply (h : builder.apply converter ceiling entry = .ok next) :
    next.metrics.elements = builder.metrics.elements + (builder.opening? entry).toList.length ∧
      next.metrics.depth = ((builder.opening? entry).toList.map Opening.level).foldl max
        builder.metrics.depth := by
  obtain ⟨hmetrics, -⟩ := effect_of_apply h
  rw [hmetrics]
  by_cases hevent : ∀ tag, entry.event ≠ .opened tag
  · have hcounts : (builder.counts entry.event).elements = 0 ∧
        (builder.counts entry.event).depth = 0 := by
      cases hentry : entry.event with
      | opened tag => exact absurd hentry (hevent tag)
      | _ => exact ⟨rfl, rfl⟩
    rw [opening?_of_not_opened hevent]
    simp [Metrics.join, hcounts]
  · obtain ⟨tag, htag⟩ := exists_tag hevent
    rw [opening?_of_opened htag, htag]
    exact ⟨rfl, rfl⟩

/-- The elements that are opened are the ones that are counted, and the greatest of their
levels is the depth that is reached. -/
theorem counted_of_applyAll {entries : List Entry} {builder built : Builder}
    (h : builder.applyAll converter ceiling entries = .ok built) :
    built.metrics.elements =
        builder.metrics.elements + (builder.openings converter ceiling entries).length ∧
      built.metrics.depth = ((builder.openings converter ceiling entries).map Opening.level).foldl
        max builder.metrics.depth := by
  induction entries generalizing builder with
  | nil =>
      obtain rfl := Except.ok.inj h
      exact ⟨rfl, rfl⟩
  | cons entry rest ih =>
      obtain ⟨next, happly, hrest⟩ := applyAll_cons_ok h
      obtain ⟨helements, hdepth⟩ := counted_of_apply happly
      obtain ⟨hrestElements, hrestDepth⟩ := ih hrest
      have hopenings : builder.openings converter ceiling (entry :: rest) =
          (builder.opening? entry).toList ++ next.openings converter ceiling rest := by
        rw [openings, happly]
      rw [hopenings, hrestElements, hrestDepth, helements, hdepth]
      refine ⟨?_, ?_⟩
      · rw [List.length_append, Nat.add_assoc]
      · rw [List.map_append, List.foldl_append]

/-- An element that is opened is not too deep for the settings. -/
theorem level_of_apply {opening : Opening} (hopening : builder.opening? entry = some opening)
    (h : builder.apply converter ceiling entry = .ok next) :
    converter.settings.maxNestingDepth.isBelow opening.level = false := by
  unfold opening? at hopening
  split at hopening
  · next tag hevent =>
      obtain rfl := Option.some.inj hopening
      rw [apply_opened hevent, openElement] at h
      split at h
      · simp at h
      · next hbelow => exact Bool.eq_false_iff.2 hbelow
  · simp at hopening

theorem level_of_mem_openings {entries : List Entry} {builder : Builder} {opening : Opening}
    (hmem : opening ∈ builder.openings converter ceiling entries) :
    converter.settings.maxNestingDepth.isBelow opening.level = false := by
  induction entries generalizing builder with
  | nil => simp [openings] at hmem
  | cons entry rest ih =>
      unfold openings at hmem
      split at hmem
      · simp at hmem
      · next next happly =>
          rcases List.mem_append.1 hmem with hfirst | hrest
          · exact level_of_apply (Option.mem_toList.1 hfirst) happly
          · exact ih hrest

end Builder

/-! ## Two limits on the depth -/

/-- Whether `opening` is the first of some elements that stands above a level, and stands
just above it. -/
def FirstAbove (limit : Nat) (openings : List Opening) (opening : Opening) : Prop :=
  opening.level = limit + 1 ∧
    ∃ before after, openings = before ++ opening :: after ∧ ∀ earlier ∈ before,
      earlier.level ≤ limit

theorem FirstAbove.prepend {limit : Nat} {front openings : List Opening} {opening : Opening}
    (hfront : ∀ earlier ∈ front, earlier.level ≤ limit) (h : FirstAbove limit openings opening) :
    FirstAbove limit (front ++ openings) opening := by
  obtain ⟨hlevel, before, after, rfl, hbefore⟩ := h
  refine ⟨hlevel, front ++ before, after, (List.append_assoc ..).symm, ?_⟩
  intro earlier hearlier
  rcases List.mem_append.1 hearlier with hmem | hmem
  · exact hfront earlier hmem
  · exact hbefore earlier hmem

/-- The refusal of an element that is above the limit on the depth. -/
def Opening.refusal (limit : Nat) (opening : Opening) : Failure :=
  .refused (.tooDeep (.integer limit) (some opening.tag) (some opening.start))

section DepthLimits

variable {converter : Converter} {ceiling : Option Nat} {small large : Nat}

theorem isBelow_level (limit level : Nat) :
    (Number.integer limit).isBelow level = decide (limit < level) := by
  rw [Number.isBelow_integer]
  exact decide_eq_decide.2 Int.ofNat_lt

/-- A limit is looked at where an element is opened, and nowhere else. -/
theorem apply_of_not_opened {entry : Entry} (hevent : ∀ tag, entry.event ≠ .opened tag)
    (builder : Builder) (first second : Nat) :
    builder.apply (converter.depthLimited first) ceiling entry =
      builder.apply (converter.depthLimited second) ceiling entry := by
  obtain ⟨event, start, behind⟩ := entry
  cases event with
  | opened tag => exact absurd rfl (hevent tag)
  | attr | entered | selfClosed | text | cdata | comment | instruction | declaration | closed => rfl

theorem openElement_refused {limit : Nat} {builder : Builder} {tag : String}
    {start behind : Position} (hlevel : limit < builder.stack.length + 1) :
    builder.openElement (converter.depthLimited limit) ceiling tag start behind =
      .error (.refused (.tooDeep (.integer limit) (some tag) (some start))) := by
  have hbelow : (Number.integer limit).isBelow (builder.stack.length + 1 : Nat) = true := by
    rw [isBelow_level]
    exact decide_eq_true hlevel
  exact if_pos hbelow

theorem openElement_allowed {limit : Nat} {builder : Builder} {tag : String}
    {start behind : Position} (hlevel : builder.stack.length + 1 ≤ limit) :
    builder.openElement (converter.depthLimited limit) ceiling tag start behind =
      if ceiling.any (· < builder.stack.length + 1) then
        .error (.refused (.tooDeep (.integer builder.metrics.depth) none (some behind)))
      else
        .ok { builder with
          tag := some (tag, .empty)
          metrics := builder.metrics.countElement (builder.stack.length + 1) } := by
  have hbelow : ¬ (Number.integer limit).isBelow (builder.stack.length + 1 : Nat) = true := by
    rw [isBelow_level, decide_eq_true_eq]
    omega
  exact if_neg hbelow

/-- In a nest that is not deeper than the smaller limit an event does the same under both
limits, or it opens an element just above the smaller one, which that refuses. -/
theorem apply_depthLimited (hlimits : small < large) {builder : Builder} {entry : Entry}
    (hdepth : builder.nest.depth ≤ small)
    (hroom : ¬ IsExhausted (builder.apply (converter.depthLimited large) ceiling entry)) :
    (builder.apply (converter.depthLimited small) ceiling entry =
        builder.apply (converter.depthLimited large) ceiling entry ∧
      (builder.nest.after entry.event).depth ≤ small ∧
      ∀ opening ∈ (builder.opening? entry).toList, opening.level ≤ small) ∨
    ∃ opening next, builder.opening? entry = some opening ∧ opening.level = small + 1 ∧
      builder.apply (converter.depthLimited large) ceiling entry = .ok next ∧
      builder.apply (converter.depthLimited small) ceiling entry =
        .error (opening.refusal small) := by
  by_cases hevent : ∀ tag, entry.event ≠ .opened tag
  · refine .inl ⟨apply_of_not_opened hevent builder small large,
      Nat.le_trans (Nest.depth_after_le hevent builder.nest) hdepth, ?_⟩
    simp [Builder.opening?_of_not_opened hevent]
  · obtain ⟨tag, htag⟩ := Builder.exists_tag hevent
    have hopening : builder.opening? entry = some ⟨tag, builder.stack.length + 1, entry.start⟩ :=
      Builder.opening?_of_opened htag
    have hstack : builder.nest.openTags.length = builder.stack.length := List.length_map ..
    -- The elements on the stack are open, so the new level is at most one above the limit.
    have hle : builder.stack.length ≤ small := by
      rw [← hstack]
      exact Nat.le_trans (Nat.le_add_right _ _) hdepth
    rw [apply_opened htag] at hroom ⊢
    rw [apply_opened htag]
    rcases Nat.lt_or_eq_of_le hle with hlt | heq
    · refine .inl ⟨?_, ?_, ?_⟩
      · rw [openElement_allowed hlt, openElement_allowed (by omega)]
      · rw [htag, Nest.depth_after_opened, hstack]
        exact hlt
      · rw [hopening]
        intro opening hmem
        obtain rfl := List.mem_singleton.1 hmem
        exact hlt
    · -- The larger limit lets the element pass, so only the ceiling could stop it.
      have hallowed : ¬ ceiling.any (· < builder.stack.length + 1) = true := by
        intro hany
        refine hroom ⟨.integer builder.metrics.depth, some entry.behind, ?_⟩
        rw [openElement_allowed (by omega), if_pos hany]
      have hopened := (@openElement_allowed converter ceiling large builder tag entry.start
        entry.behind (by omega)).trans (if_neg hallowed)
      exact .inr ⟨_, _, hopening, congrArg (· + 1) heq, hopened, openElement_refused (by omega)⟩

/-- As long as there is room, what follows under the smaller limit is what follows under the
larger one, or the refusal of the first element that is above the smaller one. -/
theorem follow_depthLimited (hlimits : small < large) (fault : Option MarkupError)
    {entries : List Entry} {builder : Builder} (hdepth : builder.nest.depth ≤ small)
    (hroom : ¬ IsExhausted
      (builder.follow (converter.depthLimited large) ceiling fault entries).outcome) :
    ((∀ opening ∈ builder.openings (converter.depthLimited large) ceiling entries,
        opening.level ≤ small) ∧
      builder.follow (converter.depthLimited small) ceiling fault entries =
        builder.follow (converter.depthLimited large) ceiling fault entries) ∨
    ∃ opening,
      FirstAbove small (builder.openings (converter.depthLimited large) ceiling entries) opening ∧
      (builder.follow (converter.depthLimited small) ceiling fault entries).outcome =
        .error (opening.refusal small) := by
  -- The bound on the nest is what both runs keep until the refusal.
  induction entries generalizing builder with
  | nil => exact .inl ⟨by simp [Builder.openings], rfl⟩
  | cons entry rest ih =>
      have hstep : ¬ IsExhausted (builder.apply (converter.depthLimited large) ceiling entry) := by
        rintro ⟨limit, position, happly⟩
        exact hroom ⟨limit, position, by rw [Builder.follow, happly]⟩
      rcases apply_depthLimited hlimits hdepth hstep with
        ⟨hsame, hafter, hlevel⟩ | ⟨opening, next, hopening, hlevel, happly, hrefused⟩
      · rw [Builder.follow] at hroom
        rw [Builder.follow, Builder.follow, Builder.openings, hsame]
        cases happly : builder.apply (converter.depthLimited large) ceiling entry with
        | error failure => exact .inl ⟨by simp, rfl⟩
        | ok next =>
            rw [happly] at hroom
            rw [← Builder.nest_apply happly] at hafter
            rcases ih hafter hroom with ⟨hall, hfollow⟩ | ⟨opening, hfirst, hrefused⟩
            · refine .inl ⟨?_, hfollow⟩
              intro opening hmem
              rcases List.mem_append.1 hmem with hown | hlater
              · exact hlevel opening hown
              · exact hall opening hlater
            · exact .inr ⟨opening, hfirst.prepend hlevel, hrefused⟩
      · have hopenings : builder.openings (converter.depthLimited large) ceiling (entry :: rest) =
            opening :: next.openings (converter.depthLimited large) ceiling rest := by
          rw [Builder.openings, happly, hopening]
          rfl
        refine .inr ⟨opening, ⟨hlevel, [], _, hopenings, by simp⟩, ?_⟩
        rw [Builder.follow, hrefused]

end DepthLimits

/-! ## Conversions -/

namespace Converter

variable {converter : Converter} {text : String}

/-- A larger limit on the depth changes nothing until an element above the smaller one is
opened, which the smaller one refuses. -/
theorem convert_depthLimited {small large : Nat} (hlimits : small ≤ large)
    (hroom : ¬ IsExhausted ((converter.depthLimited large).convert text).outcome) :
    ((∀ opening ∈ (converter.depthLimited large).openings text, opening.level ≤ small) ∧
      (converter.depthLimited small).convert text = (converter.depthLimited large).convert text) ∨
    ∃ opening, FirstAbove small ((converter.depthLimited large).openings text) opening ∧
      ((converter.depthLimited small).convert text).outcome = .error (opening.refusal small) := by
  rcases Nat.lt_or_eq_of_le hlimits with hlt | rfl
  · cases hlength : converter.exceededLimit? text with
    | some limit =>
        have hopenings : (converter.depthLimited large).openings text = [] := by
          have hlarge : (converter.depthLimited large).exceededLimit? text = some limit := hlength
          rw [openings, hlarge]
        have hsmall : (converter.depthLimited small).exceededLimit? text = some limit := hlength
        have hlarge : (converter.depthLimited large).exceededLimit? text = some limit := hlength
        refine .inl ⟨by simp [hopenings], ?_⟩
        rw [convert, convert, hsmall, hlarge]
    | none =>
        have hsmall : (converter.depthLimited small).exceededLimit? text = none := hlength
        have hlarge : (converter.depthLimited large).exceededLimit? text = none := hlength
        rw [convert_eq_conclude hlarge] at hroom ⊢
        rw [convert_eq_conclude hsmall, openings, hlarge]
        have hstart : (converter.machine text).builder.nest.depth ≤ small := Nat.zero_le _
        rcases follow_depthLimited hlt (Trace.ofText text).fault hstart
          fun hexhausted => hroom (isExhausted_conclude hexhausted) with
            ⟨hall, hsame⟩ | ⟨opening, hfirst, hrefused⟩
        · exact .inl ⟨hall, congrArg converter.conclude hsame⟩
        · refine .inr ⟨opening, hfirst, ?_⟩
          rw [outcome_conclude]
          exact congrArg (Except.map _) hrefused
  · refine .inl ⟨?_, rfl⟩
    intro opening hmem
    unfold openings at hmem
    split at hmem
    · simp at hmem
    · have hbelow := Builder.level_of_mem_openings hmem
      rw [show (converter.depthLimited small).settings.maxNestingDepth = .integer small from rfl,
        isBelow_level, decide_eq_false_iff_not] at hbelow
      exact Nat.not_lt.1 hbelow

/-- The depth that is counted is zero or a level that the settings let pass. -/
theorem depth_of_convert {motive : Nat → Prop} {found : Conversion} (hzero : motive 0)
    (hlevel : ∀ level : Nat,
      converter.settings.maxNestingDepth.isBelow level = false → motive level)
    (h : (converter.convert text).outcome = .ok found) : motive found.metrics.depth := by
  obtain ⟨-, -, built, hbuilt, rfl⟩ := applyAll_of_convert h
  have hdepth : built.metrics.depth = _ := (Builder.counted_of_applyAll hbuilt).2
  change motive built.metrics.depth
  rw [hdepth]
  refine List.foldlRecOn _ max (motive := motive) hzero ?_
  intro reached hreached level hmem
  obtain ⟨opening, hopening, rfl⟩ := List.mem_map.1 hmem
  rcases Nat.le_total reached opening.level with hle | hle
  · rw [Nat.max_eq_right hle]
    exact hlevel opening.level (Builder.level_of_mem_openings hopening)
  · rwa [Nat.max_eq_left hle]

/-- No more depth is counted than the limit allows. -/
theorem depth_le_of_convert {limit : Nat} {found : Conversion}
    (h : ((converter.depthLimited limit).convert text).outcome = .ok found) :
    found.metrics.depth ≤ limit := by
  refine depth_of_convert (motive := (· ≤ limit)) (Nat.zero_le limit) (fun level hbelow => ?_) h
  rw [show (converter.depthLimited limit).settings.maxNestingDepth = .integer limit from rfl,
    isBelow_level, decide_eq_false_iff_not] at hbelow
  exact Nat.not_lt.1 hbelow

theorem exceededLimit?_lengthLimited (limit : Int) :
    (converter.lengthLimited limit).exceededLimit? text =
      if limit < text.length then some (.integer limit) else none := by
  change (if (Number.integer limit).isBelow text.length then _ else _) = _
  simp only [Number.isBelow_integer, decide_eq_true_eq]

/-- No event looks at the limit on the length. -/
theorem follow_lengthLimited (limit : Int) (ceiling : Option Nat) (fault : Option MarkupError)
    (entries : List Entry) (builder : Builder) :
    builder.follow (converter.lengthLimited limit) ceiling fault entries =
      builder.follow converter.lengthUnlimited ceiling fault entries := by
  induction entries generalizing builder with
  | nil => rfl
  | cons entry rest ih =>
      have hsame : builder.apply (converter.lengthLimited limit) ceiling entry =
          builder.apply converter.lengthUnlimited ceiling entry := by
        obtain ⟨event, start, behind⟩ := entry
        cases event <;> rfl
      rw [Builder.follow, Builder.follow, hsame]
      cases builder.apply converter.lengthUnlimited ceiling entry with
      | error failure => rfl
      | ok next => exact ih next

/-- A document that keeps within the limit on its length is converted as if there were no
limit. -/
theorem convert_lengthLimited {limit : Int} (hle : text.length ≤ limit) :
    (converter.lengthLimited limit).convert text = converter.lengthUnlimited.convert text := by
  rw [convert_eq_conclude ((exceededLimit?_lengthLimited limit).trans (if_neg (by omega))),
    convert_eq_conclude (rfl : converter.lengthUnlimited.exceededLimit? text = none),
    follow_lengthLimited]
  rfl

/-- A document that is not too long is not refused as one. -/
theorem not_tooLong {length : Int} {limit : Number}
    (hlength : converter.exceededLimit? text = none) :
    (converter.convert text).outcome ≠ .error (.refused (.tooLong length limit)) := by
  intro h
  rw [convert_outcome hlength] at h
  cases hfollow : ((converter.machine text).builder.follow converter converter.ceiling
      (Trace.ofText text).fault (Trace.ofText text).entries).outcome with
  | ok found => simp [hfollow, Except.map] at h
  | error failure =>
      obtain rfl : failure = _ := by simpa [hfollow, Except.map] using h
      rcases Builder.failure_of_follow hfollow with
        ⟨error, hfault⟩ | ⟨found, tag, position, hdeep⟩ | ⟨hlong, -⟩
      · simp at hfault
      · simp at hdeep
      · simp at hlong

/-- Limits are guards.  Of two limits on the depth the smaller one gives the same conversion
as the larger one if no element stands above it, and otherwise the refusal of the first
element that does; a limit on the length refuses the documents that are longer, and is not
seen in any other conversion; and what is accepted is not deeper than its limit. -/
theorem limits_are_guards (converter : Converter) (text : String) :
    (∀ small large : Nat, small ≤ large →
      ¬ IsExhausted ((converter.depthLimited large).convert text).outcome →
      ((∀ opening ∈ (converter.depthLimited large).openings text, opening.level ≤ small) →
        (converter.depthLimited small).convert text =
          (converter.depthLimited large).convert text) ∧
      ((∃ opening ∈ (converter.depthLimited large).openings text, small < opening.level) →
        ∃ opening, FirstAbove small ((converter.depthLimited large).openings text) opening ∧
          ((converter.depthLimited small).convert text).outcome =
            .error (opening.refusal small))) ∧
    (∀ limit : Int,
      (limit < text.length → ((converter.lengthLimited limit).convert text).outcome =
        .error (.refused (.tooLong text.length (.integer limit)))) ∧
      (text.length ≤ limit →
        (converter.lengthLimited limit).convert text = converter.lengthUnlimited.convert text ∧
        ∀ length found, ((converter.lengthLimited limit).convert text).outcome ≠
          .error (.refused (.tooLong length found)))) ∧
    ∀ limit found, ((converter.depthLimited limit).convert text).outcome = .ok found →
      found.metrics.depth ≤ limit := by
  refine ⟨?_, ?_, fun limit found => depth_le_of_convert⟩
  · intro small large hlimits hroom
    rcases convert_depthLimited hlimits hroom with ⟨hall, hsame⟩ | ⟨opening, hfirst, hrefused⟩
    · refine ⟨fun _ => hsame, ?_⟩
      rintro ⟨opening, hmem, habove⟩
      exact absurd (hall opening hmem) (Nat.not_le_of_lt habove)
    · refine ⟨fun hall => ?_, fun _ => ⟨opening, hfirst, hrefused⟩⟩
      obtain ⟨hlevel, before, after, hopenings, -⟩ := hfirst
      have hle := hall opening (by simp [hopenings])
      omega
  · intro limit
    refine ⟨fun hlong => convert_tooLong ?_, fun hle => ⟨convert_lengthLimited hle, ?_⟩⟩
    · exact (exceededLimit?_lengthLimited limit).trans (if_pos hlong)
    · intro length found
      exact not_tooLong ((exceededLimit?_lengthLimited limit).trans (if_neg (by omega)))

/-- Of two nested elements the inner one is the first above a limit of one. -/
theorem limits_are_guards_nested :
    ∃ opening, FirstAbove 1 ((({} : Converter).depthLimited 2).openings "<a><b/></a>") opening ∧
      ((({} : Converter).depthLimited 1).convert "<a><b/></a>").outcome =
        .error (opening.refusal 1) := by
  refine ((limits_are_guards {} "<a><b/></a>").1 1 2 (by decide)
    (not_isExhausted_convert rfl (by decide) _)).2 ?_
  refine ⟨⟨"b", 2, Position.start.advanceOver ['<', 'a', '>', '<']⟩, ?_, by decide⟩
  decide +kernel

end Converter

end XmlToJson
