import XmlToJson.Proofs.RepeatedKeys

/-!
# Coercion changes leaves only

Two converters that differ in whether they keep scalars as texts read the same events of a document.
Side by side they build trees of the same shape: where one has a text, the other has the value of
that text, and nothing else differs but the records that are written (`coercion_is_leafwise`).

## Strategy

The change from one tree to the other is `mapTexts`, applied to every text of a value.

* **The change and the shape.**  No step looks at a coerced value to decide what to do, with one
  exception: whether a value is an array that can be extended.  `KeepsShape` says that a change of
  texts makes no arrays and leaves the empty text as it is, and is all that appending and folding
  need (`KeepsShape.append`, `KeepsShape.fold`).  The value of a text is such a change, as the value
  of a text is no array and no object (`isContainer_ofText`).
* **The exception.**  Only a whole number with too many digits has no value.  `IsLongInteger` spells
  that out as a form of texts, and the two lemmas `isLongInteger_of_ofText` and
  `ofText_of_isLongInteger` say that there is no other.
* **Side by side.**  `Agree` relates what comes of a step of both converters: the same failure, or
  builders that differ by the change.  It is shown for a text, an attribute and an opening tag
  (`agree_contributeText`, `agree_addAttribute`, `agree_openElement`), with them for every event
  (`agree_apply`), and by induction for all events (`agree_applyAll`).

So the coercing conversion is the other one with `Scalar.valueOf` applied to every text, unless it
meets a text that is a long integer.
-/

namespace XmlToJson

/-! ## Changing the texts of a value -/

namespace Value

variable (change : String → Value)

mutual

/-- The value with every text in it changed. -/
def mapTexts : Value → Value
  | .string text => change text
  | .list items => .list (mapItems items)
  | .gathered items => .gathered (mapItems items)
  | .object members => .object (mapMembers members)
  | .null => .null
  | .bool value => .bool value
  | .integer value => .integer value
  | .float value => .float value

def mapItems : List Value → List Value
  | [] => []
  | item :: rest => item.mapTexts :: mapItems rest

def mapMembers : List (String × Value) → List (String × Value)
  | [] => []
  | (key, value) :: rest => (key, value.mapTexts) :: mapMembers rest

end

theorem mapItems_append (first second : List Value) :
    mapItems change (first ++ second) = mapItems change first ++ mapItems change second := by
  induction first with
  | nil => rfl
  | cons item rest ih => simp only [List.cons_append, mapItems, ih]

theorem lookup_mapMembers (key : String) (members : List (String × Value)) :
    (mapMembers change members).lookup key = (members.lookup key).map (mapTexts change) := by
  induction members with
  | nil => rfl
  | cons member rest ih =>
      obtain ⟨name, value⟩ := member
      rw [mapMembers, Entries.lookup_cons, Entries.lookup_cons, ih]
      split <;> rfl

theorem mapMembers_set (key : String) (value : Value) (members : List (String × Value)) :
    mapMembers change (Entries.set key value members) =
      Entries.set key (value.mapTexts change) (mapMembers change members) := by
  induction members with
  | nil => rfl
  | cons member rest ih =>
      obtain ⟨name, old⟩ := member
      simp only [Entries.set, mapMembers]
      split
      · rfl
      · rw [mapMembers, ih]

end Value

def Object.mapTexts (change : String → Value) (object : Object) : Object :=
  ⟨Value.mapMembers change object.members⟩

/-- A change of texts that makes no arrays and leaves the empty text as it is. -/
structure KeepsShape (change : String → Value) : Prop where
  notGathered : ∀ text, (change text).gatheredItems = [change text]
  empty : change "" = .string ""

namespace KeepsShape

variable {change : String → Value} (hchange : KeepsShape change)

include hchange

theorem gatheredItems (value : Value) :
    (value.mapTexts change).gatheredItems = Value.mapItems change value.gatheredItems := by
  cases value with
  | string text => exact hchange.notGathered text
  | _ => rfl

theorem append (object : Object) (key : String) (value : Value) :
    (object.append key value).mapTexts change =
      (object.mapTexts change).append key (value.mapTexts change) := by
  rw [Object.append_eq, Object.append_eq]
  have hget : (object.mapTexts change).get? key =
      (object.get? key).map (Value.mapTexts change) :=
    Value.lookup_mapMembers change key object.members
  -- Whether there is an array to extend is not changed, as no text becomes an array.
  have hextend : (extend value (object.get? key)).mapTexts change =
      extend (value.mapTexts change) ((object.get? key).map (Value.mapTexts change)) := by
    cases object.get? key with
    | none => rfl
    | some first =>
        simp only [extend, Option.map_some, Value.mapTexts, Value.mapItems_append, Value.mapItems,
          hchange.gatheredItems]
  rw [hget, ← hextend]
  exact congrArg Object.mk (Value.mapMembers_set change key _ object.members)

theorem fold (object : Object) :
    (object.mapTexts change).fold = object.fold.mapTexts change := by
  obtain ⟨members⟩ := object
  -- Folding looks at the number of members and at their keys only.
  match members with
  | [] => exact hchange.empty.symm
  | [(key, value)] =>
      by_cases hkey : key = Object.contentKey
      · simp [Object.fold, Object.mapTexts, Value.mapMembers, hkey]
      · simp [Object.fold, Object.mapTexts, Object.toValue, Value.mapMembers, Value.mapTexts, hkey]
  | _ :: _ :: _ => rfl

theorem foldSelfClosing (object : Object) :
    (object.mapTexts change).foldSelfClosing = object.foldSelfClosing.mapTexts change := by
  obtain ⟨members⟩ := object
  cases members with
  | nil => exact hchange.empty.symm
  | cons member rest => rfl

end KeepsShape

/-! ## The values of texts -/

/-- Whether a text is a whole number with too many digits to be read: an optional minus
and digits, of which the first is not zero. -/
def IsLongInteger (text : String) : Prop :=
  ∃ sign digits, text.toList = sign ++ digits ∧ (sign = [] ∨ sign = ['-']) ∧
    (∀ c ∈ digits, c.isDigit = true) ∧ digits.head? ≠ some '0' ∧
    Numeral.maxDigits < digits.length

theorem IsLongInteger.length {text : String} (h : IsLongInteger text) :
    Numeral.maxDigits < text.length := by
  obtain ⟨sign, digits, htext, -, -, -, hdigits⟩ := h
  rw [← String.length_toList, htext, List.length_append]
  omega

namespace Numeral.Literal

/-- A whole part of more than one digit is all digits and does not begin with zero. -/
theorem readWhole_of_one_lt {body : List Char} (h : 1 < (readWhole body).length) :
    readWhole body = digits body ∧ body.head? ≠ some '0' := by
  unfold readWhole at h ⊢
  split at h
  · simp at h
  · next hzero =>
      refine ⟨rfl, fun hhead => ?_⟩
      obtain ⟨rest, rfl⟩ := List.head?_eq_some_iff.1 hhead
      exact hzero rest rfl

/-- A body that is one long run of digits. -/
theorem digits_of_ofBody {negative : Bool} {body : List Char}
    (hlong : maxDigits < (ofBody negative body).whole.length)
    (hall : body.length ≤ (ofBody negative body).whole.length) :
    (∀ c ∈ body, c.isDigit = true) ∧ body.head? ≠ some '0' ∧ maxDigits < body.length := by
  have hlong : maxDigits < (readWhole body).length := hlong
  have hall : body.length ≤ (readWhole body).length := hall
  obtain ⟨hwhole, hhead⟩ := readWhole_of_one_lt (Nat.lt_trans (by decide) hlong)
  rw [hwhole] at hlong hall
  have hbody : digits body = body :=
    (List.takeWhile_prefix Char.isDigit).eq_of_length_le hall
  refine ⟨fun c hc => ?_, hhead, hbody ▸ hlong⟩
  have hmem : c ∈ body.takeWhile Char.isDigit := by
    rw [show body.takeWhile Char.isDigit = body from hbody]
    exact hc
  exact List.all_eq_true.1 List.all_takeWhile c hmem

theorem front_cases (text : List Char) :
    (∃ body, text = '-' :: body ∧ front text = ofBody true body) ∨
      front text = ofBody false text := by
  unfold front
  split
  · next body => exact .inl ⟨body, rfl, rfl⟩
  · exact .inr rfl

theorem length_of_isInteger {literal : Literal} (h : literal.isInteger = true) :
    literal.length = (if literal.negative then 1 else 0) + literal.whole.length := by
  obtain ⟨hfraction, hexponent⟩ := Bool.and_eq_true_iff.1 h
  simp [length, List.isEmpty_iff.1 hfraction, List.isEmpty_iff.1 hexponent]

/-- A text that is a long whole number has a sign and many digits. -/
theorem digits_of_read {text : List Char} {literal : Literal}
    (h : read text = some (literal, [])) (hinteger : literal.isInteger = true)
    (hlong : maxDigits < literal.whole.length) :
    ∃ sign digits, text = sign ++ digits ∧ (sign = [] ∨ sign = ['-']) ∧
      (∀ c ∈ digits, c.isDigit = true) ∧ digits.head? ≠ some '0' ∧ maxDigits < digits.length := by
  unfold read at h
  dsimp only at h
  split at h
  · simp at h
  · obtain ⟨hliteral, hdrop⟩ := Prod.mk.inj (Option.some.inj h)
    rw [hliteral] at hdrop
    have hlength : text.length ≤ literal.length := List.drop_eq_nil_iff.1 hdrop
    rw [length_of_isInteger hinteger] at hlength
    subst hliteral
    rcases front_cases text with ⟨body, rfl, hfront⟩ | hfront
    · rw [hfront] at hlong hlength
      have hbody : body.length ≤ (ofBody true body).whole.length := by
        simp only [List.length_cons, ofBody, if_true] at hlength ⊢
        omega
      exact ⟨['-'], body, rfl, .inr rfl, digits_of_ofBody hlong hbody⟩
    · rw [hfront] at hlong hlength
      have hbody : text.length ≤ (ofBody false text).whole.length := by
        simp only [ofBody, Bool.false_eq_true, if_false] at hlength ⊢
        omega
      exact ⟨[], text, rfl, .inl rfl, digits_of_ofBody hlong hbody⟩

/-- Digits that do not begin with zero are the literal of a whole number. -/
theorem ofBody_digits {body : List Char} (hdigits : ∀ c ∈ body, c.isDigit = true)
    (hhead : body.head? ≠ some '0') (negative : Bool) :
    ofBody negative body = ⟨negative, body, [], []⟩ := by
  have hwhole : readWhole body = body := by
    have hall : digits body = body := by
      have htake := @List.takeWhile_append_of_pos _ Char.isDigit body [] hdigits
      rwa [List.takeWhile_nil, List.append_nil] at htake
    unfold readWhole
    split
    · simp at hhead
    · exact hall
  simp [ofBody, hwhole, readFraction, readExponent]

/-- A sign and digits are read as a whole. -/
theorem read_digits {sign body : List Char} (hsign : sign = [] ∨ sign = ['-'])
    (hdigits : ∀ c ∈ body, c.isDigit = true) (hhead : body.head? ≠ some '0') (hbody : body ≠ []) :
    read (sign ++ body) = some (⟨sign = ['-'], body, [], []⟩, []) := by
  have hfront : front (sign ++ body) = ⟨sign = ['-'], body, [], []⟩ := by
    rcases hsign with rfl | rfl
    · have hminus : ∀ rest, body ≠ '-' :: rest := by
        rintro rest rfl
        exact absurd (hdigits '-' List.mem_cons_self) (by decide)
      have hplain : front body = ofBody false body := by
        unfold front
        split
        · exact absurd rfl (hminus _)
        · rfl
      rw [List.nil_append, hplain, ofBody_digits hdigits hhead]
      simp
    · exact ofBody_digits hdigits hhead true
  rw [read, hfront]
  rcases hsign with rfl | rfl <;> simp [hbody, length, Nat.add_comm]

end Numeral.Literal

namespace Scalar

/-- The value that a text stands for; one that cannot be read stays as it is. -/
def valueOf (text : String) : Value :=
  match ofText text with
  | .ok value => value
  | .error _ => .string text

theorem isContainer_ofLiteral {text : String} {value : Value} (h : ofLiteral text = .ok value) :
    value.isContainer = false := by
  unfold ofLiteral at h
  split at h
  · obtain rfl := Except.ok.inj h
    rfl
  · split at h
    · obtain rfl := Except.ok.inj h
      rfl
    · split at h
      · split at h
        · simp at h
        · obtain rfl := Except.ok.inj h
          rfl
      · obtain rfl := Except.ok.inj h
        split <;> rfl

/-- The value of a text is no array and no object. -/
theorem isContainer_ofText {text : String} {value : Value} (h : ofText text = .ok value) :
    value.isContainer = false := by
  unfold ofText at h
  split at h
  · next found hword =>
      obtain rfl := Except.ok.inj h
      unfold word? at hword
      split at hword <;> simp at hword <;> subst hword <;> rfl
  · split at h
    · exact isContainer_ofLiteral h
    · obtain rfl := Except.ok.inj h
      rfl

theorem isContainer_valueOf (text : String) : (valueOf text).isContainer = false := by
  unfold valueOf
  cases hvalue : ofText text with
  | ok value => exact isContainer_ofText hvalue
  | error problem => rfl

theorem keepsShape_valueOf : KeepsShape valueOf where
  notGathered := by
    intro text
    have hcontainer := isContainer_valueOf text
    cases hvalue : valueOf text <;> rw [hvalue] at hcontainer <;>
      simp_all [Value.isContainer, Value.gatheredItems]
  empty := rfl

/-- Only a whole number with too many digits cannot be read. -/
theorem isLongInteger_of_ofText {text : String} {problem : TooLong}
    (h : ofText text = .error problem) : IsLongInteger text := by
  unfold ofText at h
  split at h
  · simp at h
  · split at h
    · unfold ofLiteral at h
      split at h
      · simp at h
      · next literal hliteral =>
          split at h
          · simp at h
          · split at h
            · next hinteger =>
                split at h
                · next hlong =>
                    unfold literal? at hliteral
                    split at hliteral
                    · next found hread =>
                        obtain rfl := Option.some.inj hliteral
                        exact Numeral.Literal.digits_of_read hread hinteger hlong
                    · simp at hliteral
                · simp at h
            · simp at h
    · simp at h

/-- A word is short. -/
theorem word?_of_long {text : List Char} (h : 5 < text.length) : word? text = none := by
  have hword : ∀ word : String, String.ofList (text.map Char.toLower) = word →
      5 < word.length := by
    rintro word rfl
    rwa [String.length_ofList, List.length_map]
  unfold word?
  split
  · exact absurd (hword _ ‹_›) (by decide)
  · exact absurd (hword _ ‹_›) (by decide)
  · exact absurd (hword _ ‹_›) (by decide)
  · rfl

/-- A whole number with too many digits cannot be read. -/
theorem ofText_of_isLongInteger {text : String} (h : IsLongInteger text) :
    ofText text = .error .tooLong := by
  have hlength : 5 < text.length := Nat.lt_trans (by decide) h.length
  have hzero : text ≠ "-0" := by
    rintro rfl
    exact absurd hlength (by decide)
  obtain ⟨sign, digits, htext, hsign, hdigits, hhead, hlong⟩ := h
  have hbody : digits ≠ [] := List.ne_nil_of_length_pos (Nat.lt_trans (by decide) hlong)
  have hliteral : literal? text.toList = some ⟨sign = ['-'], digits, [], []⟩ := by
    rw [literal?, htext, Numeral.Literal.read_digits hsign hdigits hhead hbody]
  have hbegins : beginsLiteral text.toList = true := by
    rw [htext]
    rcases hsign with rfl | rfl
    · obtain ⟨c, rest, rfl⟩ := List.exists_cons_of_ne_nil hbody
      simp [beginsLiteral, hdigits c List.mem_cons_self]
    · rfl
  unfold ofText ofLiteral
  rw [word?_of_long (by rwa [String.length_toList]), hliteral]
  simp [hbegins, hzero, Numeral.Literal.isInteger, hlong]

end Scalar

/-! ## Two converters side by side -/

/-- The converter with another choice of whether scalars stay texts. -/
def Converter.keeping (converter : Converter) (keepStrings : Value) : Converter :=
  { converter with settings := { converter.settings with keepStrings := keepStrings } }

theorem Builder.openElement_keeping (converter : Converter) (keepStrings : Value)
    (ceiling : Option Nat) (builder : Builder) (tag : String) (start behind : Position) :
    builder.openElement (converter.keeping keepStrings) ceiling tag start behind =
      builder.openElement converter ceiling tag start behind := rfl

/-- The text of an event that is read as a scalar. -/
def Event.scalar? : Event → Option String
  | .attr _ value => value
  | .text value => some value
  | .cdata value => some value
  | _ => none

def mapFrame (change : String → Value) (frame : String × Object) : String × Object :=
  (frame.1, frame.2.mapTexts change)

namespace Builder

/-- The builder with every text in it changed, and with its own records. -/
def mapTexts (change : String → Value) (log : List LogRecord) (builder : Builder) : Builder where
  root := builder.root.mapTexts change
  stack := builder.stack.map (mapFrame change)
  tag := builder.tag.map (mapFrame change)
  metrics := builder.metrics
  log := log

variable {change : String → Value} (hchange : KeepsShape change) (log : List LogRecord)
  (builder : Builder)

include hchange

theorem mapTexts_contribute (key : String) (value : Value) :
    (builder.contribute key value).mapTexts change log =
      (builder.mapTexts change log).contribute key (value.mapTexts change) := by
  obtain ⟨root, - | ⟨⟨tag, object⟩, outer⟩, inTag, metrics, own⟩ := builder
  · simp only [contribute, mapTexts, List.map_nil, hchange.append]
  · simp only [contribute, mapTexts, List.map_cons, mapFrame, hchange.append]

theorem mapTexts_selfClose :
    (builder.selfClose).mapTexts change log = (builder.mapTexts change log).selfClose := by
  obtain ⟨root, stack, - | ⟨tag, object⟩, metrics, own⟩ := builder
  · rfl
  · simp only [selfClose]
    rw [mapTexts_contribute hchange, ← hchange.foldSelfClosing]
    rfl

theorem mapTexts_close :
    (builder.close).mapTexts change log = (builder.mapTexts change log).close := by
  obtain ⟨root, - | ⟨⟨tag, object⟩, outer⟩, inTag, metrics, own⟩ := builder
  · rfl
  · simp only [close]
    rw [mapTexts_contribute hchange, ← hchange.fold]
    rfl

omit hchange

theorem mapTexts_enter :
    (builder.enter).mapTexts change log = (builder.mapTexts change log).enter := by
  obtain ⟨root, stack, - | ⟨tag, object⟩, metrics, own⟩ := builder <;> rfl

end Builder

/-- Two outcomes agree if they are the same failure, or if what was built is the same up
to the change of texts and the records. -/
inductive Agree (change : String → Value) :
    Except Failure Builder → Except Failure Builder → Prop where
  | error (failure : Failure) : Agree change (.error failure) (.error failure)
  | ok (kept : Builder) (log : List LogRecord) :
      Agree change (.ok kept) (.ok (kept.mapTexts change log))

section Lockstep

variable {converter : Converter} {keep coerce : Value} {ceiling : Option Nat}
  (hkeep : keep.isTruthy = true) (hcoerce : coerce.isTruthy = false)

include hkeep in
theorem scalar?_keeping (text : String) :
    (converter.keeping keep).scalar? text = .ok (.string text) :=
  if_pos hkeep

include hcoerce in
theorem scalar?_coercing {text : String} (hshort : ¬ IsLongInteger text) :
    (converter.keeping coerce).scalar? text = .ok (Scalar.valueOf text) := by
  have hcoerce : ¬ (converter.keeping coerce).settings.keepStrings.isTruthy = true := by
    rw [show (converter.keeping coerce).settings.keepStrings = coerce from rfl, hcoerce]
    exact Bool.false_ne_true
  unfold Converter.scalar?
  rw [if_neg hcoerce]
  unfold Scalar.valueOf
  cases hvalue : Scalar.ofText text with
  | ok value => rfl
  | error problem => exact absurd (Scalar.isLongInteger_of_ofText hvalue) hshort

include hkeep hcoerce

theorem agree_contributeText {text : String} (hshort : ¬ IsLongInteger text) (kept : Builder)
    (log : List LogRecord) :
    Agree Scalar.valueOf (kept.contributeText (converter.keeping keep) text)
      ((kept.mapTexts Scalar.valueOf log).contributeText (converter.keeping coerce) text) := by
  unfold Builder.contributeText
  rw [scalar?_keeping hkeep, scalar?_coercing hcoerce hshort]
  split
  · exact .ok kept log
  · have hcontribute := Builder.mapTexts_contribute Scalar.keepsShape_valueOf log kept
      Object.contentKey (.string text)
    simp only [Except.map]
    rw [show Scalar.valueOf text = (Value.string text).mapTexts Scalar.valueOf from rfl,
      ← hcontribute]
    exact .ok _ log

theorem agree_addAttribute {name : String} {value : Option String}
    (hshort : ∀ text, value = some text → ¬ IsLongInteger text) (kept : Builder)
    (log : List LogRecord) :
    Agree Scalar.valueOf (kept.addAttribute (converter.keeping keep) name value)
      ((kept.mapTexts Scalar.valueOf log).addAttribute (converter.keeping coerce) name value) := by
  obtain ⟨root, stack, - | ⟨tag, object⟩, metrics, own⟩ := kept
  · exact .ok _ log
  · have hvalue : ∀ text, value = some text →
        (converter.keeping coerce).scalar? text = .ok (Scalar.valueOf text) := fun text htext =>
      scalar?_coercing hcoerce (hshort text htext)
    have happend := Scalar.keepsShape_valueOf.append object name
    cases value with
    | none =>
        have hempty := happend (.string "")
        simp only [Value.mapTexts, Scalar.keepsShape_valueOf.empty] at hempty
        simp only [Builder.addAttribute, Builder.mapTexts, Option.map_some, mapFrame,
          Option.elim_none, Except.map, ← hempty]
        exact .ok ⟨root, stack, some (tag, object.append name (.string "")), _, own⟩ log
    | some text =>
        have htext := happend (.string text)
        simp only [Value.mapTexts] at htext
        simp only [Builder.addAttribute, Builder.mapTexts, Option.map_some, mapFrame,
          Option.elim_some, scalar?_keeping hkeep, hvalue text rfl, Except.map, ← htext]
        exact .ok ⟨root, stack, some (tag, object.append name (.string text)), _, own⟩ log

omit hkeep hcoerce in
theorem agree_openElement (tag : String) (start behind : Position) (kept : Builder)
    (log : List LogRecord) :
    Agree Scalar.valueOf (kept.openElement (converter.keeping keep) ceiling tag start behind)
      ((kept.mapTexts Scalar.valueOf log).openElement (converter.keeping coerce) ceiling tag start
        behind) := by
  rw [Builder.openElement_keeping, Builder.openElement_keeping]
  unfold Builder.openElement
  simp only [Builder.mapTexts, List.length_map]
  split
  · exact .error _
  · split
    · exact .error _
    · exact .ok { kept with
        tag := some (tag, .empty)
        metrics := kept.metrics.countElement (kept.stack.length + 1) } log

theorem agree_apply {entry : Entry}
    (hshort : ∀ text, entry.event.scalar? = some text → ¬ IsLongInteger text) (kept : Builder)
    (log : List LogRecord) :
    Agree Scalar.valueOf (kept.apply (converter.keeping keep) ceiling entry)
      ((kept.mapTexts Scalar.valueOf log).apply (converter.keeping coerce) ceiling entry) := by
  obtain ⟨event, start, behind⟩ := entry
  cases event with
  | opened tag => exact agree_openElement tag start behind kept log
  | attr name value => exact agree_addAttribute hkeep hcoerce hshort kept log
  | entered =>
      simp only [Builder.apply, ← Builder.mapTexts_enter]
      exact .ok _ log
  | selfClosed =>
      simp only [Builder.apply, ← Builder.mapTexts_selfClose Scalar.keepsShape_valueOf]
      exact .ok _ log
  | text text => exact agree_contributeText hkeep hcoerce (hshort text rfl) kept log
  | cdata text =>
      exact agree_contributeText hkeep hcoerce (hshort text rfl)
        { kept with metrics := kept.metrics.countCdata } log
  | comment body => exact .ok { kept with metrics := kept.metrics.countComment } log
  | instruction body => exact .ok { kept with metrics := kept.metrics.countInstruction } log
  | declaration =>
      let record := converter.logger.record .debug "Skipped markup declaration" []
      exact .ok { kept with metrics := kept.metrics.countDeclaration, log := kept.log ++ [record] }
        (log ++ [record])
  | closed tag =>
      simp only [Builder.apply, ← Builder.mapTexts_close Scalar.keepsShape_valueOf]
      exact .ok _ log

theorem agree_applyAll {entries : List Entry}
    (hshort : ∀ entry ∈ entries, ∀ text, entry.event.scalar? = some text → ¬ IsLongInteger text)
    (kept : Builder) (log : List LogRecord) :
    Agree Scalar.valueOf (kept.applyAll (converter.keeping keep) ceiling entries)
      ((kept.mapTexts Scalar.valueOf log).applyAll (converter.keeping coerce) ceiling
        entries) := by
  induction entries generalizing kept log with
  | nil => exact .ok kept log
  | cons entry rest ih =>
      have happly := @agree_apply converter _ _ ceiling hkeep hcoerce entry
        (hshort entry List.mem_cons_self) kept log
      unfold Builder.applyAll
      -- Only how the two next builders agree matters, not how they came about.
      generalize kept.apply _ ceiling entry = keptNext at happly ⊢
      generalize (kept.mapTexts _ log).apply _ ceiling entry = coercedNext at happly ⊢
      cases happly with
      | error failure => exact .error failure
      | ok next nextLog =>
        exact ih (fun other hother => hshort other (List.mem_cons_of_mem _ hother)) next nextLog

end Lockstep

/-! ## Conversions -/

def Conversion.mapTexts (change : String → Value) (found : Conversion) : Conversion :=
  { found with data := found.data.mapTexts change }

/-- Coercion changes nothing but leaves.  Of two converters that differ only in whether
they keep scalars as texts, the coercing one fails as the other does, and otherwise comes
to the same counters and to the same data with every text replaced by its value, which is
never a container.  The texts must not be whole numbers that are too long to be read. -/
theorem coercion_is_leafwise (converter : Converter) (keep coerce : Value)
    (hkeep : keep.isTruthy = true) (hcoerce : coerce.isTruthy = false) (text : String)
    (hshort : ∀ entry ∈ (Trace.ofText text).entries, ∀ own,
      entry.event.scalar? = some own → ¬ IsLongInteger own) :
    ((converter.keeping coerce).convert text).outcome =
        ((converter.keeping keep).convert text).outcome.map (Conversion.mapTexts Scalar.valueOf) ∧
      ∀ own, (Scalar.valueOf own).isContainer = false := by
  refine ⟨?_, Scalar.isContainer_valueOf⟩
  cases hlength : converter.exceededLimit? text with
  | some limit =>
      rw [@Converter.convert_tooLong (converter.keeping coerce) text limit hlength,
        @Converter.convert_tooLong (converter.keeping keep) text limit hlength]
      rfl
  | none =>
      rw [@Converter.convert_outcome (converter.keeping coerce) text hlength,
        @Converter.convert_outcome (converter.keeping keep) text hlength,
        Builder.outcome_follow, Builder.outcome_follow]
      have hagree := @agree_applyAll converter keep coerce converter.ceiling hkeep hcoerce _
        hshort ((converter.keeping keep).machine text).builder
        ((converter.keeping coerce).machine text).builder.log
      have hbuilder : ((converter.keeping keep).machine text).builder.mapTexts Scalar.valueOf
          ((converter.keeping coerce).machine text).builder.log =
          ((converter.keeping coerce).machine text).builder := rfl
      rw [hbuilder] at hagree
      have hceiling : ∀ keepStrings, (converter.keeping keepStrings).ceiling = converter.ceiling :=
        fun _ => rfl
      rw [hceiling, hceiling]
      generalize ((converter.keeping keep).machine text).builder.applyAll _ _ _ = kept at hagree ⊢
      generalize ((converter.keeping coerce).machine text).builder.applyAll _ _ _ = coerced
        at hagree ⊢
      cases hagree with
      | error failure => rfl
      | ok built log =>
          cases (Trace.ofText text).fault <;> rfl

/-- The texts of `<a b='1'>x</a>` are short. -/
theorem coercion_is_leafwise_short :
    (∀ entry ∈ (Trace.ofText "<a b='1'>x</a>").entries, ∀ own,
      entry.event.scalar? = some own → ¬ IsLongInteger own) ∧
    ((({} : Converter).keeping (.bool false)).convert "<a b='1'>x</a>").outcome =
      ((({} : Converter).keeping (.bool true)).convert "<a b='1'>x</a>").outcome.map
        (Conversion.mapTexts Scalar.valueOf) := by
  have hall : (Trace.ofText "<a b='1'>x</a>").entries.all (fun entry =>
      entry.event.scalar?.all (·.length ≤ Numeral.maxDigits)) = true := by
    decide +kernel
  have hshort : ∀ entry ∈ (Trace.ofText "<a b='1'>x</a>").entries, ∀ own,
      entry.event.scalar? = some own → ¬ IsLongInteger own := by
    intro entry hentry own hown hlong
    have hlength := List.all_eq_true.1 hall entry hentry
    rw [hown, Option.all_some, decide_eq_true_eq] at hlength
    exact absurd hlong.length (Nat.not_lt.2 hlength)
  exact ⟨hshort, (coercion_is_leafwise {} (.bool true) (.bool false) rfl rfl _ hshort).1⟩

end XmlToJson
