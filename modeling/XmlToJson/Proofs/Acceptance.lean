import XmlToJson.Proofs.Descent
import XmlToJson.Proofs.Items

/-!
# Which documents are accepted

The conversion recurses into every element and needs room for that; the machine with a stack does
the same work without.  This file compares the two and reads off the stack which documents are
accepted (`convert_eq_stack_machine`).

## Strategy

* **Room.**  A ceiling can be met in one way only: an element would be opened above it
  (`IsExhausted`).  `openElement_ceiling`, `apply_ceiling` and `follow_ceiling` compare two ceilings
  for one element, one event and all events, so that a conversion which is not exhausted is the one
  of the machine without a ceiling (`Converter.convert_eq_unbounded`).
* **Settings that leave room.**  A limit on the depth that is not above the ceiling is met before
  it.  Each way to apply an event is looked at once (`not_isExhausted_apply`), so under such a limit
  no document is exhausted at all (`not_isExhausted_convert`).
* **The stack.**  `Reaches` is the closure of the steps of the machine, and `run_of_reaches` says
  that a run goes on from every state that it reaches.  What a state shows then decides the end:
  - a run with a result ends where the text does, outside every element (`exists_end`), so all
    elements have been closed;
  - in front of nothing but blanks, inside an element, the innermost element is the one that is
    refused (`run_of_endsInside`);
  - a close tag outside every element is refused, for itself or for its name
    (`run_of_facesCloseTag`).

Since a conversion ends as the machine does from any state that it visits (`outcome_of_visits`), the
three hold of the recursion as long as its room lasts.
-/

namespace XmlToJson

/-! ## Running out of room -/

/-- Whether the recursion ended because it had no room for another level. -/
def IsExhausted {α : Type} (outcome : Except Failure α) : Prop :=
  ∃ limit position, outcome = .error (.refused (.tooDeep limit none position))

namespace Builder

variable {converter : Converter} {ceiling : Nat}

theorem openElement_ceiling (builder : Builder) (tag : String) (start behind : Position) :
    builder.openElement converter (some ceiling) tag start behind =
        builder.openElement converter none tag start behind ∨
      IsExhausted (builder.openElement converter (some ceiling) tag start behind) := by
  unfold openElement
  dsimp only
  split
  · exact .inl rfl
  · split
    · exact .inr ⟨_, _, rfl⟩
    · exact .inl rfl

theorem apply_ceiling (builder : Builder) (entry : Entry) :
    builder.apply converter (some ceiling) entry = builder.apply converter none entry ∨
      IsExhausted (builder.apply converter (some ceiling) entry) := by
  obtain ⟨event, start, behind⟩ := entry
  cases event with
  | opened tag => exact openElement_ceiling builder tag start behind
  | attr | entered | selfClosed | text | cdata | comment | instruction | declaration | closed =>
      exact .inl rfl

theorem follow_ceiling (fault : Option MarkupError) (entries : List Entry) (builder : Builder) :
    builder.follow converter (some ceiling) fault entries =
        builder.follow converter none fault entries ∨
      IsExhausted (builder.follow converter (some ceiling) fault entries).outcome := by
  -- As long as both apply the same, they go on from the same builder.
  induction entries generalizing builder with
  | nil => exact .inl rfl
  | cons entry rest ih =>
      rcases @apply_ceiling converter ceiling builder entry with
        happly | ⟨limit, position, happly⟩
      · simp only [follow, happly]
        cases builder.apply converter none entry with
        | error failure => exact .inl rfl
        | ok next => exact ih next
      · refine .inr ⟨limit, position, ?_⟩
        simp only [follow, happly]

end Builder

/-- The ceiling matters for a run only if it is reached. -/
theorem Machine.run_ceiling (converter : Converter) (ceiling : Nat) (machine : Machine) :
    machine.run converter (some ceiling) = machine.run converter none ∨
      IsExhausted (machine.run converter (some ceiling)).outcome := by
  rw [run_eq_follow, run_eq_follow]
  exact Builder.follow_ceiling _ _ _

theorem isExhausted_conclude {converter : Converter} {built : Built}
    (h : IsExhausted built.outcome) : IsExhausted (converter.conclude built).outcome := by
  obtain ⟨limit, position, h⟩ := h
  refine ⟨limit, position, ?_⟩
  unfold Converter.conclude
  rw [h]

/-- While there is room, the recursion does what the machine without a ceiling does. -/
theorem Converter.convert_eq_unbounded {converter : Converter} {text : String}
    (h : ¬ IsExhausted (converter.convert text).outcome) :
    converter.convert text = converter.convertWithStack none text := by
  rw [convert_eq_convertWithStack] at h ⊢
  unfold convertWithStack at h ⊢
  cases hlimit : converter.exceededLimit? text with
  | some limit => rfl
  | none =>
      rw [hlimit] at h
      rcases (converter.machine text).run_ceiling converter converter.host.elementLevels with
        hrun | hrun
      · exact congrArg converter.conclude hrun
      · exact (h (isExhausted_conclude hrun)).elim

/-! ## Settings that leave room -/

namespace Builder

variable {converter : Converter} {builder : Builder}

theorem not_isExhausted_contributeText (text : String) :
    ¬ IsExhausted (builder.contributeText converter text) := by
  rintro ⟨limit, position, h⟩
  unfold contributeText Converter.scalar? at h
  split at h
  · simp at h
  · split at h
    · simp [Except.map] at h
    · split at h <;> simp [Except.map] at h

theorem not_isExhausted_addAttribute (name : String) (value : Option String) :
    ¬ IsExhausted (builder.addAttribute converter name value) := by
  rintro ⟨limit, position, h⟩
  unfold addAttribute at h
  split at h
  · simp at h
  · cases value with
    | none => simp [Except.map] at h
    | some text =>
        simp only [Option.elim_some, Converter.scalar?] at h
        split at h
        · simp [Except.map] at h
        · split at h <;> simp [Except.map] at h

theorem not_isExhausted_openElement (tag : String) (start behind : Position) :
    ¬ IsExhausted (builder.openElement converter none tag start behind) := by
  rintro ⟨limit, position, h⟩
  unfold openElement at h
  dsimp only at h
  split at h
  · simp at h
  · simp at h

theorem not_isExhausted_apply (entry : Entry) :
    ¬ IsExhausted (builder.apply converter none entry) := by
  obtain ⟨event, start, behind⟩ := entry
  cases event with
  | opened tag => exact not_isExhausted_openElement tag start behind
  | attr name value => exact not_isExhausted_addAttribute name value
  | text text => exact not_isExhausted_contributeText text
  | cdata text => exact not_isExhausted_contributeText text
  | entered | selfClosed | comment | instruction | declaration | closed =>
      rintro ⟨limit, position, h⟩
      simp [apply] at h

theorem not_isExhausted_follow (fault : Option MarkupError) (entries : List Entry)
    (builder : Builder) : ¬ IsExhausted (builder.follow converter none fault entries).outcome := by
  induction entries generalizing builder with
  | nil =>
      rintro ⟨limit, position, h⟩
      cases fault <;> simp [follow] at h
  | cons entry rest ih =>
      rintro ⟨limit, position, h⟩
      unfold follow at h
      cases happly : builder.apply converter none entry with
      | error failure =>
          rw [happly] at h
          refine not_isExhausted_apply entry ⟨limit, position, happly.trans ?_⟩
          exact congrArg Except.error (Except.error.inj h)
      | ok next =>
          rw [happly] at h
          exact ih next ⟨limit, position, h⟩

theorem apply_ceiling_of_le {limit : Int} {ceiling : Nat}
    (hlimit : converter.settings.maxNestingDepth = .integer limit) (hle : limit ≤ ceiling)
    (entry : Entry) :
    builder.apply converter (some ceiling) entry = builder.apply converter none entry := by
  obtain ⟨event, start, behind⟩ := entry
  cases event with
  | attr | entered | selfClosed | text | cdata | comment | instruction | declaration | closed => rfl
  | opened tag =>
      show builder.openElement _ _ _ _ _ = builder.openElement _ _ _ _ _
      unfold openElement
      rw [hlimit]
      dsimp only
      split
      · rfl
      · next hbelow =>
          -- The limit lets the level pass, so the level is not above the ceiling either.
          rw [Number.isBelow_integer, decide_eq_true_eq] at hbelow
          have hany : ¬ (some ceiling).any (· < builder.stack.length + 1) = true := by
            simp only [Option.any_some, decide_eq_true_eq]
            omega
          rw [if_neg hany]
          rfl

theorem follow_ceiling_of_le {limit : Int} {ceiling : Nat}
    (hlimit : converter.settings.maxNestingDepth = .integer limit) (hle : limit ≤ ceiling)
    (fault : Option MarkupError) (entries : List Entry) (builder : Builder) :
    builder.follow converter (some ceiling) fault entries =
      builder.follow converter none fault entries := by
  induction entries generalizing builder with
  | nil => rfl
  | cons entry rest ih =>
      unfold follow
      rw [apply_ceiling_of_le hlimit hle]
      cases builder.apply converter none entry with
      | error failure => rfl
      | ok next => exact ih next

end Builder

/-- A depth limit that is not above the supported depth leaves room for every document. -/
theorem not_isExhausted_convert {converter : Converter} {limit : Int}
    (hlimit : converter.settings.maxNestingDepth = .integer limit)
    (hle : limit ≤ converter.host.elementLevels) (text : String) :
    ¬ IsExhausted (converter.convert text).outcome := by
  rintro ⟨found, position, h⟩
  rw [Converter.convert_eq_convertWithStack, Converter.convertWithStack] at h
  split at h
  · simp at h
  · rw [Machine.run_eq_follow, Builder.follow_ceiling_of_le hlimit hle] at h
    unfold Converter.conclude at h
    split at h
    · simp at h
    · next error hrun =>
        refine Builder.not_isExhausted_follow _ _ _ ⟨found, position, hrun.trans ?_⟩
        exact congrArg Except.error (Except.error.inj h)
    · simp at h

/-! ## Runs of the machine -/

namespace Machine

/-- Whether a machine gets from one state to another by reading events and applying
them. -/
inductive Reaches (converter : Converter) (ceiling : Option Nat) : Machine → Machine → Prop where
  | refl (machine : Machine) : Reaches converter ceiling machine machine
  | step {machine next last : Machine} {reading : Reading} {cursor : Cursor} :
      nextReading machine.reader.place machine.cursor = .ok (some reading) cursor →
      machine.after converter ceiling reading cursor = .ok next →
      Reaches converter ceiling next last → Reaches converter ceiling machine last

variable {converter : Converter} {ceiling : Option Nat} {machine last : Machine}

/-- A run goes on from every state that it reaches. -/
theorem run_of_reaches (h : Reaches converter ceiling machine last) :
    machine.run converter ceiling = last.run converter ceiling := by
  induction h with
  | refl machine => rfl
  | step hread hafter _ ih => exact (run_of_step hread hafter).trans ih

/-- A run with a result ends where the text ends, outside every element. -/
theorem exists_end {root : Object} {metrics : Metrics}
    (h : (machine.run converter ceiling).outcome = .ok (root, metrics)) :
    ∃ last stop, Reaches converter ceiling machine last ∧
      nextReading last.reader.place last.cursor = .ok none stop ∧
      last.builder.root = root ∧ last.builder.metrics = metrics := by
  fun_induction run converter ceiling machine with
  | case1 machine error cursor hread => simp at h
  | case2 machine cursor hread =>
      obtain ⟨hroot, hmetrics⟩ := Prod.mk.inj (Except.ok.inj h)
      exact ⟨machine, cursor, .refl machine, hread, hroot, hmetrics⟩
  | case3 machine reading cursor hread failure hafter => simp at h
  | case4 machine reading cursor hread next hafter ih =>
      obtain ⟨last, stop, hreaches, hend⟩ := ih h
      exact ⟨last, stop, .step hread hafter hreaches, hend⟩

theorem nothing_open {stop : Cursor}
    (h : nextReading machine.reader.place machine.cursor = .ok none stop) :
    machine.builder.stack = [] ∧ machine.builder.tag = none := by
  have hnest : machine.builder.nest = ⟨[], none⟩ :=
    Nest.eq_of_place_document (place_of_nextReading_none h)
  obtain ⟨hstack, htag⟩ := Nest.mk.inj hnest
  exact ⟨List.map_eq_nil_iff.1 hstack, Option.map_eq_none_iff.1 htag⟩

/-- Whether nothing but blanks follows in the content of the element `tag`, which is on
top of the stack. -/
structure EndsInside (machine : Machine) (tag : String) : Prop where
  top : ∃ object outer, machine.builder.stack = (tag, object) :: outer
  betweenTags : machine.builder.tag = none
  blank : ∀ c ∈ machine.cursor.rest, Text.isBlank c = true

/-- Whether a close tag follows outside every element; `behind` is the cursor behind
its slash. -/
structure FacesCloseTag (machine : Machine) (behind : Cursor) : Prop where
  outside : machine.builder.stack = []
  betweenTags : machine.builder.tag = none
  slash : ∃ index token, Text.indexOf? ['<'] machine.cursor.rest = some index ∧
    Scan.nextToken (machine.cursor.skip (index + 1)) = .ok token behind ∧
    token.isThe .slash = true

/-- What a close tag outside every element is refused for: that it is there, unless not
even its name can be read. -/
def strayError (behind : Cursor) : MarkupError :=
  match Scan.nextToken behind with
  | .ok name stop => ⟨.strayCloseTag name.value, some stop.position⟩
  | .error error _ => error

/-- A text that ends inside an element is refused for the innermost one. -/
theorem run_of_endsInside {tag : String} (h : machine.EndsInside tag) :
    (machine.run converter ceiling).outcome = .error (.refused (.malformed
      ⟨.unclosedElement tag, some machine.cursor.skipAll.position⟩)) := by
  obtain ⟨object, outer, htop⟩ := h.top
  have hplace : machine.reader.place = .content tag := by
    simp [reader, Reader.place, Builder.nest, htop, h.betweenTags]
  -- Only blanks are left, so skipping them reaches the end of the text.
  have htake : machine.cursor.rest.takeWhile Text.isBlank = machine.cursor.rest := by
    simpa using @List.takeWhile_append_of_pos _ Text.isBlank machine.cursor.rest [] h.blank
  have hskip : Scan.skipBlanks machine.cursor = machine.cursor.skipAll := by
    unfold Scan.skipBlanks Cursor.skipAll
    rw [htake]
    rfl
  have hrest : (Scan.skipBlanks machine.cursor).rest = [] := by
    rw [hskip]
    exact List.drop_length
  have hcontent : Scan.nextContent machine.cursor = .ok none machine.cursor.skipAll := by
    simp only [Scan.nextContent, hrest]
    rw [hskip]
  have hread : nextReading machine.reader.place machine.cursor =
      .error ⟨.unclosedElement tag, some machine.cursor.skipAll.position⟩
        machine.cursor.skipAll := by
    rw [hplace]
    simp only [nextReading, Scan.contentReading, map_apply, bind_apply, hcontent]
    rfl
  rw [run_of_error hread]

/-- A close tag outside every element is refused. -/
theorem run_of_facesCloseTag {behind : Cursor} (h : machine.FacesCloseTag behind) :
    (machine.run converter ceiling).outcome =
      .error (.refused (.malformed (strayError behind))) := by
  obtain ⟨index, token, hindex, htoken, hslash⟩ := h.slash
  have hplace : machine.reader.place = .document := by
    simp [reader, Reader.place, Builder.nest, h.outside, h.betweenTags]
  have hbang : token.isThe .bang = false := by simp_all [Token.isThe]
  have hquestion : token.isThe .question = false := by simp_all [Token.isThe]
  have hread : nextReading machine.reader.place machine.cursor =
      (some <$> Scan.markupReading none) (machine.cursor.skip (index + 1)) := by
    rw [hplace]
    simp only [nextReading, hindex]
  simp only [Scan.markupReading, Scan.markupEvent, Scan.closeTag, map_apply, bind_apply, htoken,
    hbang, hquestion, hslash, if_true, Bool.false_eq_true, if_false] at hread
  -- The name is read before the tag is refused, and that can fail first.
  unfold strayError
  cases hname : Scan.nextToken behind with
  | ok name stop =>
      rw [hname] at hread
      rw [run_of_error hread]
  | error error stop =>
      rw [hname] at hread
      rw [run_of_error hread]

end Machine

/-! ## The recursion and the stack -/

namespace Converter

variable {converter : Converter} {text : String}

/-- Whether the machine is at some time in the given state when it converts a text. -/
def Visits (converter : Converter) (text : String) (machine : Machine) : Prop :=
  converter.exceededLimit? text = none ∧
    Machine.Reaches converter none (converter.machine text) machine

/-- A conversion ends as the machine does from any state that it visits. -/
theorem outcome_of_visits {machine : Machine} (h : converter.Visits text machine)
    {error : ConversionError}
    (hrun : (machine.run converter none).outcome = .error (.refused error)) :
    (converter.convertWithStack none text).outcome = .error (.refused error) := by
  obtain ⟨hlimit, hreaches⟩ := h
  unfold convertWithStack
  rw [hlimit]
  dsimp only
  rw [Machine.run_of_reaches hreaches]
  unfold conclude
  rw [hrun]

/-- An accepted document has been built when the text ends, with nothing left open. -/
theorem exists_last_of_accepts {found : Conversion}
    (h : (converter.convertWithStack none text).outcome = .ok found) :
    ∃ last stop, converter.Visits text last ∧
      nextReading last.reader.place last.cursor = .ok none stop ∧
      last.builder.stack = [] ∧ last.builder.tag = none ∧
      last.builder.root = found.data ∧ last.builder.metrics = found.metrics := by
  unfold convertWithStack at h
  cases hlimit : converter.exceededLimit? text with
  | some limit => simp [hlimit] at h
  | none =>
      rw [hlimit] at h
      dsimp only at h
      rw [outcome_conclude] at h
      obtain ⟨⟨root, metrics⟩, hrun, rfl⟩ := exists_of_map_ok h
      obtain ⟨last, stop, hreaches, hend, hroot, hmetrics⟩ := Machine.exists_end hrun
      obtain ⟨hstack, htag⟩ := Machine.nothing_open hend
      exact ⟨last, stop, ⟨hlimit, hreaches⟩, hend, hstack, htag, hroot, hmetrics⟩

/-- As long as there is room, the recursion comes to the same end as the machine with a
stack.  So an accepted document has balanced tags and leaves nothing open, a document
that ends inside an element is refused for the innermost one, and a close tag outside
every element is refused. -/
theorem convert_eq_stack_machine (converter : Converter) (text : String)
    (hroom : ¬ IsExhausted (converter.convert text).outcome) :
    converter.convert text = converter.convertWithStack none text ∧
      (∀ found, (converter.convert text).outcome = .ok found →
        Balanced (tagMarks (Trace.ofText text).entries) ∧
        ∃ last stop, converter.Visits text last ∧
          nextReading last.reader.place last.cursor = .ok none stop ∧
          last.builder.stack = [] ∧ last.builder.tag = none ∧
          last.builder.root = found.data ∧ last.builder.metrics = found.metrics) ∧
      (∀ machine tag, converter.Visits text machine → machine.EndsInside tag →
        (converter.convert text).outcome = .error (.refused (.malformed
          ⟨.unclosedElement tag, some machine.cursor.skipAll.position⟩))) ∧
      (∀ machine behind, converter.Visits text machine → machine.FacesCloseTag behind →
        (converter.convert text).outcome =
          .error (.refused (.malformed (Machine.strayError behind)))) := by
  have hequal := convert_eq_unbounded hroom
  refine ⟨hequal, fun found haccepts => ⟨?_, ?_⟩, ?_, ?_⟩
  · obtain ⟨-, hfault, -⟩ := follow_of_convert haccepts
    obtain ⟨items, hitems⟩ := exists_spells text hfault
    exact hitems.balanced
  · rw [hequal] at haccepts
    exact exists_last_of_accepts haccepts
  · intro machine tag hvisits hends
    rw [hequal]
    exact outcome_of_visits hvisits (Machine.run_of_endsInside hends)
  · intro machine behind hvisits hfaces
    rw [hequal]
    exact outcome_of_visits hvisits (Machine.run_of_facesCloseTag hfaces)

/-- The default settings leave room for `<a><b>x</b>`, which ends inside `a`. -/
theorem convert_eq_stack_machine_unclosed :
    ¬ IsExhausted (({} : Converter).convert "<a><b>x</b>").outcome ∧
      ({} : Converter).convert "<a><b>x</b>" =
        ({} : Converter).convertWithStack none "<a><b>x</b>" :=
  have hroom := not_isExhausted_convert rfl (by decide) "<a><b>x</b>"
  ⟨hroom, (convert_eq_stack_machine {} "<a><b>x</b>" hroom).1⟩

end Converter

end XmlToJson
