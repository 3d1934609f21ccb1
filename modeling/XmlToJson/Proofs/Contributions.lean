import XmlToJson.Proofs.Descent
import XmlToJson.Proofs.Items

/-!
# What a document contributes

Every attribute, text and child of an element adds a value under a key to the object of that
element.  `contributions` lists these values for a list of items, each element being gathered and
folded first, and `metricsOf` counts what the items hold.  Neither mentions events or a builder, so
whatever is proved of an accepted document can be proved by induction on its items
(`Converter.eq_conversionOf`).

## Strategy

* **What the events of items add.**  `Grown` says that a builder holds some contributions and some
  counts more than another one, and otherwise the same.  It is kept by what follows (`Grown.trans`),
  so `Spells.grown_of_applyAll` takes the items one after the other: an item of one event adds what
  it contributes (`grown_of_leaf`), and an element opens a builder of its own with its name and its
  attributes (`opened_of_applyAll`), which holds the contributions of its content when it is closed.
* **What can stop them.**  `Stopped` says that a failure comes of a text that cannot be read, or of
  a level at which no element may stand.  It has the same induction with the other outcome
  (`Spells.applyAll_error`), where each step either fails itself or leaves the failure to the steps
  behind it (`stopped_append`, `stopped_opened`).
* **The two together.**  A document that is spelled without a fault is accepted unless it is too
  long, nests too deeply or has a text that cannot be read, and what it is converted to is
  `conversionOf` its items (`Converter.outcome_of_spells`).

The values of texts come in as a parameter, `value`; for a converter it is `valueOf`, which leaves a
text that cannot be read as it is, so that contributions are there for every list of items.
-/

namespace XmlToJson

/-- Values with the keys they are contributed under, in order. -/
abbrev Contributions := List (String × Value)

namespace Object

def appendAll (object : Object) (contributions : Contributions) : Object :=
  contributions.foldl (fun object (key, value) => object.append key value) object

/-- The object that gathers contributions. -/
def gather (contributions : Contributions) : Object := empty.appendAll contributions

@[simp] theorem appendAll_nil (object : Object) : object.appendAll [] = object := rfl

@[simp] theorem appendAll_cons (object : Object) (key : String) (value : Value)
    (rest : Contributions) :
    object.appendAll ((key, value) :: rest) = (object.append key value).appendAll rest := rfl

theorem appendAll_append (object : Object) (first second : Contributions) :
    object.appendAll (first ++ second) = (object.appendAll first).appendAll second :=
  List.foldl_append

end Object

/-! ## Items -/

section Items

variable (value : String → Value)

/-- What a text contributes; an empty one contributes nothing. -/
def textContributions (text : String) : Contributions :=
  if text = "" then [] else [(Object.contentKey, value text)]

/-- What attributes contribute; one without a value contributes an empty text. -/
def attributeContributions (attributes : Attributes) : Contributions :=
  attributes.map fun (name, text) => (name, text.elim (.string "") value)

mutual

/-- What an item contributes, if `value` gives the values of texts. -/
def Item.contributions : Item → Contributions
  | .text text => textContributions value text
  | .cdata text => textContributions value text
  | .comment _ => []
  | .instruction _ => []
  | .declaration => []
  | .selfClosing tag attributes =>
      [(tag, (Object.gather (attributeContributions value attributes)).foldSelfClosing)]
  | .element tag attributes content =>
      [(tag, (Object.gather
        (attributeContributions value attributes ++ contributions content)).fold)]

/-- What items contribute one after the other. -/
def contributions : List Item → Contributions
  | [] => []
  | item :: rest => item.contributions ++ contributions rest

end

end Items

/-- The texts of attributes that are read as scalars. -/
def attributeScalars (attributes : Attributes) : List String :=
  attributes.filterMap (·.2)

/-- The texts among one text that are read as scalars: it, unless it is empty. -/
def textScalars (text : String) : List String :=
  if text = "" then [] else [text]

mutual

def Item.scalars : Item → List String
  | .text text => textScalars text
  | .cdata text => textScalars text
  | .comment _ => []
  | .instruction _ => []
  | .declaration => []
  | .selfClosing _ attributes => attributeScalars attributes
  | .element _ attributes content => attributeScalars attributes ++ scalars content

/-- The texts of items that are read as scalars. -/
def scalars : List Item → List String
  | [] => []
  | item :: rest => item.scalars ++ scalars rest

end

mutual

def Item.height : Item → Nat
  | .selfClosing .. => 1
  | .element _ _ content => height content + 1
  | _ => 0

/-- The number of levels that items nest. -/
def height : List Item → Nat
  | [] => 0
  | item :: rest => max item.height (height rest)

end

namespace Metrics

/-- Counts what two parts of a document hold together. -/
def join (first second : Metrics) : Metrics where
  characters := first.characters + second.characters
  elements := first.elements + second.elements
  attributes := first.attributes + second.attributes
  depth := max first.depth second.depth
  comments := first.comments + second.comments
  declarations := first.declarations + second.declarations
  instructions := first.instructions + second.instructions
  cdataSections := first.cdataSections + second.cdataSections

@[simp] theorem join_empty (metrics : Metrics) : metrics.join {} = metrics := by
  simp [join]

theorem countAttribute_join (metrics : Metrics) (count : Nat) :
    metrics.countAttribute.join { attributes := count } =
      metrics.join { attributes := count + 1 } := by
  simp only [countAttribute, join, Nat.add_assoc, Nat.add_comm 1 count]

theorem join_assoc (first second third : Metrics) :
    (first.join second).join third = first.join (second.join third) := by
  simp [join, Nat.add_assoc, Nat.max_assoc]

/-- The counters of one opening tag at the depth `level`. -/
def ofTag (level : Nat) (attributes : Attributes) : Metrics where
  elements := 1
  attributes := attributes.length
  depth := level

end Metrics

mutual

def Item.metrics (level : Nat) : Item → Metrics
  | .text _ => {}
  | .cdata _ => { cdataSections := 1 }
  | .comment _ => { comments := 1 }
  | .instruction _ => { instructions := 1 }
  | .declaration => { declarations := 1 }
  | .selfClosing _ attributes => .ofTag (level + 1) attributes
  | .element _ attributes content =>
      (Metrics.ofTag (level + 1) attributes).join (metricsOf (level + 1) content)

/-- What items of an element at the depth `level` add to the counters. -/
def metricsOf (level : Nat) : List Item → Metrics
  | [] => {}
  | item :: rest => (item.metrics level).join (metricsOf level rest)

end

/-! ## What the events of items add -/

namespace Builder

/-- Applies events one after the other. -/
def applyAll (converter : Converter) (ceiling : Option Nat) :
    List Entry → Builder → Except Failure Builder
  | [], builder => .ok builder
  | entry :: rest, builder =>
      match builder.apply converter ceiling entry with
      | .error failure => .error failure
      | .ok next => applyAll converter ceiling rest next

variable {converter : Converter} {ceiling : Option Nat}

theorem applyAll_append (first second : List Entry) (builder : Builder) :
    builder.applyAll converter ceiling (first ++ second) =
      match builder.applyAll converter ceiling first with
      | .error failure => .error failure
      | .ok next => next.applyAll converter ceiling second := by
  induction first generalizing builder with
  | nil => rfl
  | cons entry rest ih =>
      simp only [List.cons_append, applyAll]
      cases builder.apply converter ceiling entry with
      | error failure => rfl
      | ok next => exact ih next

theorem outcome_follow (fault : Option MarkupError) (entries : List Entry) (builder : Builder) :
    (builder.follow converter ceiling fault entries).outcome =
      match builder.applyAll converter ceiling entries with
      | .error failure => .error failure
      | .ok built =>
          match fault with
          | none => .ok (built.root, built.metrics)
          | some error => .error (.refused (.malformed error)) := by
  induction entries generalizing builder with
  | nil => cases fault <;> rfl
  | cons entry rest ih =>
      simp only [follow, applyAll]
      cases builder.apply converter ceiling entry with
      | error failure => rfl
      | ok next => exact ih next

end Builder

/-- The builder `after` holds the contributions and the counts, and otherwise what
`before` holds. -/
structure Grown (before : Builder) (contributions : Contributions) (counted : Metrics)
    (after : Builder) : Prop where
  root : after.root =
    match before.stack with
    | [] => before.root.appendAll contributions
    | _ :: _ => before.root
  stack : after.stack =
    match before.stack with
    | [] => []
    | (tag, object) :: outer => (tag, object.appendAll contributions) :: outer
  tag : after.tag = before.tag
  metrics : after.metrics = before.metrics.join counted

namespace Grown

variable {before between after : Builder} {first second : Contributions}
  {counted further : Metrics}

theorem refl (builder : Builder) : Grown builder [] {} builder where
  root := by cases builder.stack <;> rfl
  stack := by cases builder.stack <;> rfl
  tag := rfl
  metrics := (Metrics.join_empty _).symm

theorem trans (h : Grown before first counted between)
    (hnext : Grown between second further after) :
    Grown before (first ++ second) (counted.join further) after where
  root := by
    rw [hnext.root, h.stack, h.root]
    cases before.stack with
    | nil => exact (Object.appendAll_append _ _ _).symm
    | cons frame outer => rfl
  stack := by
    rw [hnext.stack, h.stack]
    cases before.stack with
    | nil => rfl
    | cons frame outer => simp only [Object.appendAll_append]
  tag := hnext.tag.trans h.tag
  metrics := by rw [hnext.metrics, h.metrics, Metrics.join_assoc]

theorem stack_length (h : Grown before first counted after) :
    after.stack.length = before.stack.length := by
  rw [h.stack]
  cases before.stack <;> rfl

theorem count (hroot : after.root = before.root) (hstack : after.stack = before.stack)
    (htag : after.tag = before.tag) (hmetrics : after.metrics = before.metrics.join counted) :
    Grown before [] counted after where
  root := by
    rw [hroot]
    cases before.stack <;> rfl
  stack := by
    rw [hstack]
    cases before.stack <;> rfl
  tag := htag
  metrics := hmetrics

theorem contribute (builder : Builder) (key : String) (value : Value) :
    Grown builder [(key, value)] {} (builder.contribute key value) where
  root := by
    unfold Builder.contribute
    cases hstack : builder.stack <;> rfl
  stack := by
    obtain ⟨root, stack, tag, metrics, log⟩ := builder
    cases stack <;> rfl
  tag := by
    unfold Builder.contribute
    cases builder.stack <;> rfl
  metrics := by
    unfold Builder.contribute
    cases builder.stack <;> exact (Metrics.join_empty _).symm

theorem contributeCounted (before between : Builder) (hroot : between.root = before.root)
    (hstack : between.stack = before.stack) (htag : between.tag = before.tag)
    (hmetrics : between.metrics = before.metrics.join counted) (key : String) (value : Value) :
    Grown before [(key, value)] counted (between.contribute key value) := by
  have hcount : Grown before [] counted between := .count hroot hstack htag hmetrics
  simpa using hcount.trans (.contribute between key value)

end Grown

/-! ## The values of texts -/

namespace Converter

variable {converter : Converter} {text : String}

/-- Whether a converter can read a text as a scalar. -/
def Reads (converter : Converter) (text : String) : Prop :=
  ∃ value, converter.scalar? text = .ok value

/-- The value that a converter gives a text; one that it cannot read stays as it is. -/
def valueOf (converter : Converter) (text : String) : Value :=
  match converter.scalar? text with
  | .ok value => value
  | .error _ => .string text

theorem valueOf_of_scalar? {value : Value} (h : converter.scalar? text = .ok value) :
    converter.valueOf text = value := by
  unfold valueOf
  rw [h]

/-- A text that cannot be read is a whole number with too many digits. -/
theorem scalar?_error {failure : Failure} (h : converter.scalar? text = .error failure) :
    failure = .integerTooLong ∧ ¬ converter.Reads text := by
  refine ⟨?_, ?_⟩
  · unfold scalar? at h
    split at h
    · simp at h
    · split at h
      · simp at h
      · exact (Except.error.inj h).symm
  · rintro ⟨value, hvalue⟩
    simp [hvalue] at h

/-- Whether an element may not stand at a level. -/
def Forbids (converter : Converter) (ceiling : Option Nat) (level : Nat) : Prop :=
  converter.settings.maxNestingDepth.isBelow level = true ∨ ceiling.any (· < level) = true

end Converter

/-! ## Applying the events of an opening tag -/

section Apply

variable {converter : Converter} {ceiling : Option Nat} {before after : Builder}

open Builder

theorem apply_opened {entry : Entry} {tag : String} (hevent : entry.event = .opened tag) :
    before.apply converter ceiling entry =
      before.openElement converter ceiling tag entry.start entry.behind := by
  unfold apply
  rw [hevent]

theorem apply_attr {entry : Entry} {name : String} {value : Option String}
    (hevent : entry.event = .attr name value) :
    before.apply converter ceiling entry = before.addAttribute converter name value := by
  unfold apply
  rw [hevent]

theorem openElement_ok {tag : String} {start behind : Position}
    (h : before.openElement converter ceiling tag start behind = .ok after) :
    after = { before with
      tag := some (tag, .empty)
      metrics := before.metrics.countElement (before.stack.length + 1) } := by
  unfold openElement at h
  dsimp only at h
  split at h
  · simp at h
  · split at h
    · simp at h
    · exact (Except.ok.inj h).symm

theorem openElement_error {tag : String} {start behind : Position} {failure : Failure}
    (h : before.openElement converter ceiling tag start behind = .error failure) :
    converter.Forbids ceiling (before.stack.length + 1) := by
  unfold openElement at h
  dsimp only at h
  split at h
  · next hbelow => exact .inl hbelow
  · split at h
    · next hceiling => exact .inr hceiling
    · simp at h

/-- Attributes add what they contribute to the tag. -/
theorem applyAll_attributes {inTag : List Entry} {attributes : Attributes}
    (hattributes : inTag.map (·.event) = attributeEvents attributes) {tag : String}
    {object : Object} (htag : before.tag = some (tag, object))
    (h : before.applyAll converter ceiling inTag = .ok after) :
    after = { before with
      tag := some (tag, object.appendAll (attributeContributions converter.valueOf attributes))
      metrics := before.metrics.join { attributes := attributes.length } } ∧
    ∀ text ∈ attributeScalars attributes, converter.Reads text := by
  -- The object in the tag grows with each attribute.
  induction inTag generalizing before object attributes with
  | nil =>
      obtain rfl : attributes = [] := by simpa [attributeEvents] using hattributes.symm
      obtain rfl := Except.ok.inj h
      refine ⟨?_, by simp [attributeScalars]⟩
      obtain ⟨root, stack, inTag, metrics, log⟩ := before
      obtain rfl : inTag = some (tag, object) := htag
      simp [attributeContributions, Metrics.join]
  | cons entry rest ih =>
      obtain - | ⟨⟨name, value⟩, others⟩ := attributes
      · simp [attributeEvents] at hattributes
      · obtain ⟨hevent, hrest⟩ := List.cons.inj hattributes
        simp only [applyAll, apply_attr hevent, addAttribute, htag] at h
        cases hvalue : (value.elim (.ok (.string "")) converter.scalar? : Except Failure Value) with
        | error failure => simp [hvalue, Except.map] at h
        | ok found =>
            simp only [hvalue, Except.map] at h
            obtain ⟨rfl, hreads⟩ := ih hrest rfl h
            have hfound : value.elim (.string "") converter.valueOf = found := by
              cases value with
              | none => exact Except.ok.inj hvalue
              | some text => exact Converter.valueOf_of_scalar? hvalue
            refine ⟨?_, ?_⟩
            · simp only [attributeContributions, List.map_cons, hfound, Object.appendAll_cons,
                Metrics.countAttribute_join, List.length_cons]
            · intro text htext
              cases value with
              | none => exact hreads text htext
              | some own =>
                  rcases List.mem_cons.1 htext with rfl | hother
                  · exact ⟨found, hvalue⟩
                  · exact hreads text hother

theorem applyAll_attributes_error {inTag : List Entry} {attributes : Attributes}
    (hattributes : inTag.map (·.event) = attributeEvents attributes) {failure : Failure}
    (h : before.applyAll converter ceiling inTag = .error failure) :
    failure = .integerTooLong ∧ ∃ text ∈ attributeScalars attributes, ¬ converter.Reads text := by
  induction inTag generalizing before attributes with
  | nil => simp [applyAll] at h
  | cons entry rest ih =>
      obtain - | ⟨⟨name, value⟩, others⟩ := attributes
      · simp [attributeEvents] at hattributes
      · obtain ⟨hevent, hrest⟩ := List.cons.inj hattributes
        have hothers : ∀ {next : Builder}, next.applyAll converter ceiling rest = .error failure →
            failure = .integerTooLong ∧
              ∃ text ∈ attributeScalars ((name, value) :: others), ¬ converter.Reads text := by
          intro next hnext
          obtain ⟨hfailure, text, htext, hreads⟩ := ih hrest hnext
          refine ⟨hfailure, text, ?_, hreads⟩
          cases value with
          | none => exact htext
          | some own => exact List.mem_cons_of_mem own htext
        simp only [applyAll, apply_attr hevent] at h
        cases hadd : before.addAttribute converter name value with
        | ok next =>
            rw [hadd] at h
            exact hothers h
        | error found =>
            rw [hadd] at h
            obtain rfl := Except.error.inj h
            unfold addAttribute at hadd
            split at hadd
            · simp at hadd
            · cases value with
              | none => simp [Except.map] at hadd
              | some text =>
                  cases hscalar : converter.scalar? text with
                  | ok value => simp [hscalar, Except.map] at hadd
                  | error failure =>
                      obtain rfl : failure = found := by simpa [hscalar, Except.map] using hadd
                      obtain ⟨hfailure, hreads⟩ := Converter.scalar?_error hscalar
                      exact ⟨hfailure, text, List.mem_cons_self, hreads⟩

/-! ## Applying the events of items -/

theorem contributeText_ok {text : String}
    (h : before.contributeText converter text = .ok after) :
    Grown before (textContributions converter.valueOf text) {} after ∧
      ∀ own ∈ textScalars text, converter.Reads own := by
  unfold contributeText at h
  by_cases hempty : text = ""
  · obtain rfl := Except.ok.inj ((if_pos hempty).symm.trans h)
    simp only [textContributions, textScalars, hempty, if_true]
    exact ⟨.refl _, by simp⟩
  · rw [if_neg hempty] at h
    obtain ⟨value, hvalue, rfl⟩ := exists_of_map_ok h
    simp only [textContributions, textScalars, hempty, if_false]
    rw [Converter.valueOf_of_scalar? hvalue]
    refine ⟨.contribute before _ value, ?_⟩
    intro own hown
    obtain rfl := List.mem_singleton.1 hown
    exact ⟨value, hvalue⟩

theorem contributeText_error {text : String} {failure : Failure}
    (h : before.contributeText converter text = .error failure) :
    failure = .integerTooLong ∧ ∃ own ∈ textScalars text, ¬ converter.Reads own := by
  unfold contributeText at h
  by_cases hempty : text = ""
  · simp [hempty] at h
  · rw [if_neg hempty] at h
    cases hscalar : converter.scalar? text with
    | ok value => simp [hscalar, Except.map] at h
    | error found =>
        obtain rfl : found = failure := by simpa [hscalar, Except.map] using h
        obtain ⟨hfailure, hreads⟩ := Converter.scalar?_error hscalar
        refine ⟨hfailure, text, ?_, hreads⟩
        simp [textScalars, hempty]

/-- An item of one event adds what it contributes. -/
theorem grown_of_leaf {entry : Entry} {item : Item} (hitem : entry.event.item? = some item)
    (h : before.apply converter ceiling entry = .ok after) :
    Grown before (item.contributions converter.valueOf) (item.metrics before.stack.length) after ∧
      ∀ text ∈ item.scalars, converter.Reads text := by
  obtain ⟨event, start, behind⟩ := entry
  -- Five events are items of their own; for the others `hitem` is absurd.
  cases event <;> simp only [Event.item?, Option.some.injEq, reduceCtorEq] at hitem <;>
    subst hitem <;> simp only [Item.contributions, Item.metrics, Item.scalars]
  case text text => exact contributeText_ok h
  case cdata text =>
    obtain ⟨hgrown, hreads⟩ := contributeText_ok h
    have hcount : Grown before [] { cdataSections := 1 }
        { before with metrics := before.metrics.countCdata } :=
      .count rfl rfl rfl (by simp [Metrics.countCdata, Metrics.join])
    exact ⟨by simpa using hcount.trans hgrown, hreads⟩
  case comment body =>
    obtain rfl := Except.ok.inj h
    exact ⟨.count rfl rfl rfl (by simp [Metrics.countComment, Metrics.join]), by simp⟩
  case instruction body =>
    obtain rfl := Except.ok.inj h
    exact ⟨.count rfl rfl rfl (by simp [Metrics.countInstruction, Metrics.join]), by simp⟩
  case declaration =>
    obtain rfl := Except.ok.inj h
    exact ⟨.count rfl rfl rfl (by simp [Metrics.countDeclaration, Metrics.join]), by simp⟩

theorem leaf_error {entry : Entry} {item : Item} (hitem : entry.event.item? = some item)
    {failure : Failure} (h : before.apply converter ceiling entry = .error failure) :
    failure = .integerTooLong ∧ ∃ text ∈ item.scalars, ¬ converter.Reads text := by
  obtain ⟨event, start, behind⟩ := entry
  cases event <;> simp only [Event.item?, Option.some.injEq, reduceCtorEq] at hitem <;>
    subst hitem <;> simp only [Item.scalars]
  case text text => exact contributeText_error h
  case cdata text => exact contributeText_error h
  all_goals simp [apply] at h

/-- The name and the attributes of a tag begin an element. -/
theorem opened_of_applyAll {opening : Entry} {tag : String}
    (hopening : opening.event = .opened tag) {inTag : List Entry} {attributes : Attributes}
    (hattributes : inTag.map (·.event) = attributeEvents attributes)
    (h : before.applyAll converter ceiling (opening :: inTag) = .ok after) :
    after = { before with
      tag := some (tag, .gather (attributeContributions converter.valueOf attributes))
      metrics := before.metrics.join (.ofTag (before.stack.length + 1) attributes) } ∧
    ∀ text ∈ attributeScalars attributes, converter.Reads text := by
  simp only [applyAll, apply_opened hopening] at h
  cases hopen : before.openElement converter ceiling tag opening.start opening.behind with
  | error failure => simp [hopen] at h
  | ok next =>
      rw [hopen] at h
      obtain rfl := openElement_ok hopen
      obtain ⟨rfl, hreads⟩ := applyAll_attributes hattributes rfl h
      refine ⟨?_, hreads⟩
      simp [Object.gather, Metrics.join, Metrics.ofTag, Metrics.countElement, Metrics.recordDepth]

/-- The name and the attributes of a tag fail only if the element is too deep or a text
cannot be read. -/
theorem opened_error {opening : Entry} {tag : String}
    (hopening : opening.event = .opened tag) {inTag : List Entry} {attributes : Attributes}
    (hattributes : inTag.map (·.event) = attributeEvents attributes) {failure : Failure}
    (h : before.applyAll converter ceiling (opening :: inTag) = .error failure) :
    (failure = .integerTooLong ∧ ∃ text ∈ attributeScalars attributes, ¬ converter.Reads text) ∨
      converter.Forbids ceiling (before.stack.length + 1) := by
  simp only [applyAll, apply_opened hopening] at h
  cases hopen : before.openElement converter ceiling tag opening.start opening.behind with
  | error found => exact .inr (openElement_error hopen)
  | ok next =>
      rw [hopen] at h
      exact .inl (applyAll_attributes_error hattributes h)

end Apply

theorem Builder.applyAll_append_ok {converter : Converter} {ceiling : Option Nat}
    {first second : List Entry} {before after : Builder}
    (h : before.applyAll converter ceiling (first ++ second) = .ok after) :
    ∃ between, before.applyAll converter ceiling first = .ok between ∧
      between.applyAll converter ceiling second = .ok after := by
  rw [applyAll_append] at h
  cases hfirst : before.applyAll converter ceiling first with
  | error failure => simp [hfirst] at h
  | ok between =>
      rw [hfirst] at h
      exact ⟨between, rfl, h⟩

theorem Builder.applyAll_cons_ok {converter : Converter} {ceiling : Option Nat}
    {entry : Entry} {rest : List Entry} {before after : Builder}
    (h : before.applyAll converter ceiling (entry :: rest) = .ok after) :
    ∃ next, before.apply converter ceiling entry = .ok next ∧
      next.applyAll converter ceiling rest = .ok after := by
  unfold applyAll at h
  cases happly : before.apply converter ceiling entry with
  | error failure => simp [happly] at h
  | ok next =>
      rw [happly] at h
      exact ⟨next, rfl, h⟩

/-- What an item adds comes in front of what the items behind it add. -/
theorem grown_cons {converter : Converter} {item : Item} {items : List Item}
    {before next after : Builder}
    (hitem : Grown before (item.contributions converter.valueOf) (item.metrics before.stack.length)
      next ∧ ∀ text ∈ item.scalars, converter.Reads text)
    (hitems : Grown next (contributions converter.valueOf items)
      (metricsOf next.stack.length items) after ∧ ∀ text ∈ scalars items, converter.Reads text) :
    Grown before (contributions converter.valueOf (item :: items))
        (metricsOf before.stack.length (item :: items)) after ∧
      ∀ text ∈ scalars (item :: items), converter.Reads text := by
  obtain ⟨hown, hownReads⟩ := hitem
  obtain ⟨hgrown, hreads⟩ := hitems
  rw [hown.stack_length] at hgrown
  refine ⟨hown.trans hgrown, ?_⟩
  intro text htext
  rcases List.mem_append.1 htext with hfirst | hrest
  · exact hownReads text hfirst
  · exact hreads text hrest

/-- Whoever applies the events of items adds what the items contribute. -/
theorem Spells.grown_of_applyAll {converter : Converter} {ceiling : Option Nat}
    {entries : List Entry} {items : List Item} (h : Spells entries items)
    {before after : Builder} (htag : before.tag = none)
    (hok : before.applyAll converter ceiling entries = .ok after) :
    Grown before (contributions converter.valueOf items) (metricsOf before.stack.length items)
        after ∧
      ∀ text ∈ scalars items, converter.Reads text := by
  -- Content is applied to the builder that its element is on top of, so the builder varies.
  induction h generalizing before after with
  | nil =>
      obtain rfl := Except.ok.inj hok
      exact ⟨.refl _, by simp [scalars]⟩
  | leaf hitem hrest ih =>
      obtain ⟨next, happly, hok⟩ := Builder.applyAll_cons_ok hok
      have hleaf := grown_of_leaf hitem happly
      exact grown_cons hleaf (ih (hleaf.1.tag.trans htag) hok)
  | @selfClosing opening ending tag attributes inTag rest items hopening hattributes hending hrest
      ih =>
      rw [← List.cons_append] at hok
      obtain ⟨opened, hopened, hend⟩ := Builder.applyAll_append_ok hok
      obtain ⟨next, hclose, hbehind⟩ := Builder.applyAll_cons_ok hend
      obtain ⟨rfl, hopenedReads⟩ := opened_of_applyAll hopening hattributes hopened
      simp only [Builder.apply, hending, Except.ok.injEq] at hclose
      have htagged : Grown before
          [(tag,
            (Object.gather (attributeContributions converter.valueOf attributes)).foldSelfClosing)]
          (.ofTag (before.stack.length + 1) attributes) next := by
        rw [← hclose]
        exact .contributeCounted before
          { before with
            tag := none
            metrics := before.metrics.join (.ofTag (before.stack.length + 1) attributes) }
          rfl rfl htag.symm rfl _ _
      exact grown_cons ⟨htagged, hopenedReads⟩ (ih (htagged.tag.trans htag) hbehind)
  | @element opening ending closing tag attributes inTag inner rest content items hopening
      hattributes hending hinner hclosing hrest ihinner ih =>
      rw [← List.cons_append] at hok
      obtain ⟨opened, hopened, hend⟩ := Builder.applyAll_append_ok hok
      obtain ⟨entered, henter, hcontent⟩ := Builder.applyAll_cons_ok hend
      obtain ⟨filled, hfilled, hbehind⟩ := Builder.applyAll_append_ok hcontent
      obtain ⟨next, hclose, hbehind⟩ := Builder.applyAll_cons_ok hbehind
      obtain ⟨rfl, hopenedReads⟩ := opened_of_applyAll hopening hattributes hopened
      simp only [Builder.apply, hending, Except.ok.injEq, Builder.enter] at henter
      simp only [Builder.apply, hclosing, Except.ok.injEq] at hclose
      subst henter
      -- The content has grown the object on top of the stack; closing folds it into the one below.
      obtain ⟨hinside, hinsideReads⟩ := ihinner rfl hfilled
      have hstack := hinside.stack
      have htagged : Grown before
          ((Item.element tag attributes content).contributions converter.valueOf)
          ((Item.element tag attributes content).metrics before.stack.length) next := by
        rw [← hclose, Builder.close, hstack]
        simp only [Item.contributions, Item.metrics, Object.gather, Object.appendAll_append]
        refine .contributeCounted before { filled with stack := before.stack } hinside.root rfl
          (hinside.tag.trans htag.symm) ?_ _ _
        rw [hinside.metrics, Metrics.join_assoc]
        rfl
      have htaggedReads : ∀ text ∈ (Item.element tag attributes content).scalars,
          converter.Reads text := by
        intro text htext
        rcases List.mem_append.1 htext with hattribute | hinner
        · exact hopenedReads text hattribute
        · exact hinsideReads text hinner
      exact grown_cons ⟨htagged, htaggedReads⟩ (ih (htagged.tag.trans htag) hbehind)

/-! ## What stops items -/

/-- Whether a failure comes of a text that cannot be read, or of a level between
`depth` and `depth + height` at which no element may stand. -/
def Stopped (converter : Converter) (ceiling : Option Nat) (depth height : Nat)
    (texts : List String) (failure : Failure) : Prop :=
  (failure = .integerTooLong ∧ ∃ text ∈ texts, ¬ converter.Reads text) ∨
    ∃ level, depth < level ∧ level ≤ depth + height ∧ converter.Forbids ceiling level

theorem Stopped.mono {converter : Converter} {ceiling : Option Nat} {failure : Failure}
    {inner outer innerHeight outerHeight : Nat} {innerTexts outerTexts : List String}
    (h : Stopped converter ceiling inner innerHeight innerTexts failure)
    (hdepth : outer ≤ inner) (hheight : inner + innerHeight ≤ outer + outerHeight)
    (htexts : innerTexts ⊆ outerTexts) :
    Stopped converter ceiling outer outerHeight outerTexts failure := by
  rcases h with ⟨hfailure, text, htext, hreads⟩ | ⟨level, hlow, hhigh, hforbids⟩
  · exact .inl ⟨hfailure, text, htexts htext, hreads⟩
  · exact .inr ⟨level, by omega, by omega, hforbids⟩

section Stops

variable {converter : Converter} {ceiling : Option Nat} {before : Builder} {failure : Failure}

theorem stopped_append {front rest : List Entry} {item : Item} {items : List Item}
    (hfront : Spells front [item]) (htag : before.tag = none)
    (hitem : before.applyAll converter ceiling front = .error failure →
      Stopped converter ceiling before.stack.length item.height item.scalars failure)
    (hitems : ∀ {next : Builder}, next.tag = none →
      next.applyAll converter ceiling rest = .error failure →
      Stopped converter ceiling next.stack.length (height items) (scalars items) failure)
    (herror : before.applyAll converter ceiling (front ++ rest) = .error failure) :
    Stopped converter ceiling before.stack.length (height (item :: items))
      (scalars (item :: items)) failure := by
  rw [Builder.applyAll_append] at herror
  rw [height, scalars]
  cases hfirst : before.applyAll converter ceiling front with
  | error found =>
      obtain rfl : found = failure := by simpa [hfirst] using herror
      exact (hitem hfirst).mono (Nat.le_refl _) (by omega) (List.subset_append_left _ _)
  | ok next =>
      rw [hfirst] at herror
      obtain ⟨hgrown, -⟩ := hfront.grown_of_applyAll htag hfirst
      have hlength := hgrown.stack_length
      exact (hitems (hgrown.tag.trans htag) herror).mono (by omega) (by omega)
        (List.subset_append_right _ _)

/-- The name and the attributes of a tag stop an element, or what follows them does. -/
theorem stopped_opened {opening : Entry} {tag : String} {inTag behind : List Entry}
    {attributes : Attributes} {depth : Nat} {texts : List String}
    (hopening : opening.event = .opened tag)
    (hattributes : inTag.map (·.event) = attributeEvents attributes)
    (hbehind : ∀ {opened : Builder},
      before.applyAll converter ceiling (opening :: inTag) = .ok opened →
      opened.applyAll converter ceiling behind = .error failure →
      Stopped converter ceiling (before.stack.length + 1) depth texts failure)
    (herror : before.applyAll converter ceiling (opening :: (inTag ++ behind)) = .error failure) :
    Stopped converter ceiling before.stack.length (depth + 1)
      (attributeScalars attributes ++ texts) failure := by
  rw [← List.cons_append, Builder.applyAll_append] at herror
  cases hopened : before.applyAll converter ceiling (opening :: inTag) with
  | error found =>
      obtain rfl : found = failure := by simpa [hopened] using herror
      rcases opened_error hopening hattributes hopened with
        ⟨hfailure, text, htext, hreads⟩ | hforbids
      · exact .inl ⟨hfailure, text, List.mem_append_left _ htext, hreads⟩
      · exact .inr ⟨before.stack.length + 1, by omega, by omega, hforbids⟩
  | ok opened =>
      rw [hopened] at herror
      exact (hbehind hopened herror).mono (by omega) (by omega) (List.subset_append_right _ _)

/-- Only a text that cannot be read or a forbidden level stops the events of items. -/
theorem Spells.applyAll_error {entries : List Entry} {items : List Item}
    (h : Spells entries items) (htag : before.tag = none)
    (herror : before.applyAll converter ceiling entries = .error failure) :
    Stopped converter ceiling before.stack.length (height items) (scalars items) failure := by
  -- The height of the stack is the depth of the items, so the builder varies with it.
  induction h generalizing before with
  | nil => simp [Builder.applyAll] at herror
  | @leaf entry item rest items hitem hrest ih =>
      refine stopped_append (.leaf hitem .nil) htag (fun hfirst => ?_) ih herror
      have happly : before.apply converter ceiling entry = .error failure := by
        cases happly : before.apply converter ceiling entry with
        | error found => simpa [Builder.applyAll, happly] using hfirst
        | ok next => simp [Builder.applyAll, happly] at hfirst
      exact .inl (leaf_error hitem happly)
  | @selfClosing opening ending tag attributes inTag rest items hopening hattributes hending hrest
      ih =>
      have hsplit : opening :: (inTag ++ ending :: rest) =
          opening :: (inTag ++ [ending]) ++ rest := by simp
      rw [hsplit] at herror
      refine stopped_append (.selfClosing hopening hattributes hending .nil) htag
        (fun hfirst => ?_) ih herror
      rw [Item.height, Item.scalars, ← List.append_nil (attributeScalars attributes)]
      refine stopped_opened hopening hattributes (fun hopened hend => ?_) hfirst
      simp [Builder.applyAll, Builder.apply, hending] at hend
  | @element opening ending closing tag attributes inTag inner rest content items hopening
      hattributes hending hinner hclosing hrest ihinner ih =>
      have hsplit : opening :: (inTag ++ ending :: (inner ++ closing :: rest)) =
          opening :: (inTag ++ ending :: (inner ++ [closing])) ++ rest := by simp
      rw [hsplit] at herror
      refine stopped_append (.element hopening hattributes hending hinner hclosing .nil) htag
        (fun hfirst => ?_) ih herror
      rw [Item.height, Item.scalars]
      refine stopped_opened hopening hattributes (fun hopened hend => ?_) hfirst
      obtain ⟨rfl, -⟩ := opened_of_applyAll hopening hattributes hopened
      simp only [Builder.applyAll, Builder.apply, hending, Builder.enter] at hend
      rw [Builder.applyAll_append] at hend
      split at hend
      · next hcontent =>
          obtain rfl := Except.error.inj hend
          exact ihinner rfl hcontent
      · simp [Builder.applyAll, Builder.apply, hclosing] at hend

end Stops

/-! ## Conversions -/

namespace Converter

variable {converter : Converter} {text : String} {items : List Item}

/-- The conversion that a document with the given items is converted to. -/
def conversionOf (converter : Converter) (text : String) (items : List Item) : Conversion where
  data := .gather (contributions converter.valueOf items)
  metrics := Metrics.join { characters := text.length } (metricsOf 0 items)
  correlationId := converter.correlationId

theorem built_of_applyAll {ceiling : Option Nat} {entries : List Entry} {built : Builder}
    (hitems : Spells entries items)
    (h : (converter.machine text).builder.applyAll converter ceiling entries = .ok built) :
    converter.conversion (built.root, built.metrics) = converter.conversionOf text items ∧
      ∀ own ∈ scalars items, converter.Reads own := by
  obtain ⟨hgrown, hreads⟩ := hitems.grown_of_applyAll rfl h
  have hroot : built.root = .gather (contributions converter.valueOf items) := hgrown.root
  have hmetrics : built.metrics =
      Metrics.join { characters := text.length } (metricsOf 0 items) := hgrown.metrics
  refine ⟨?_, hreads⟩
  unfold conversion conversionOf
  rw [hroot, hmetrics]

/-- An accepted document is converted to what its items contribute. -/
theorem eq_conversionOf {found : Conversion} (h : (converter.convert text).outcome = .ok found)
    (hitems : Spells (Trace.ofText text).entries items) :
    found = converter.conversionOf text items := by
  obtain ⟨hlength, hfault, -⟩ := follow_of_convert h
  rw [convert_outcome hlength, Builder.outcome_follow, hfault] at h
  obtain ⟨⟨root, metrics⟩, hfollow, rfl⟩ := exists_of_map_ok h
  cases happly : (converter.machine text).builder.applyAll converter converter.ceiling
      (Trace.ofText text).entries with
  | error failure => simp [happly] at hfollow
  | ok built =>
      rw [happly] at hfollow
      obtain ⟨rfl, rfl⟩ := Prod.mk.inj (Except.ok.inj hfollow)
      exact (built_of_applyAll hitems happly).1

/-- A document that is spelled without a fault is accepted, unless it is too long, nests
too deeply or has a text that cannot be read. -/
theorem outcome_of_spells (hlength : converter.exceededLimit? text = none)
    (hfault : (Trace.ofText text).fault = none) (hitems : Spells (Trace.ofText text).entries items)
    (hdepth : ∀ level, 0 < level → level ≤ height items →
      ¬ converter.Forbids converter.ceiling level) :
    ((∀ own ∈ scalars items, converter.Reads own) →
      (converter.convert text).outcome = .ok (converter.conversionOf text items)) ∧
    ((∃ own ∈ scalars items, ¬ converter.Reads own) →
      (converter.convert text).outcome = .error .integerTooLong) := by
  rw [convert_outcome hlength, Builder.outcome_follow, hfault]
  cases happly : (converter.machine text).builder.applyAll converter converter.ceiling
      (Trace.ofText text).entries with
  | error failure =>
      have hstopped := hitems.applyAll_error rfl happly
      rcases hstopped with ⟨rfl, own, hown, hreads⟩ | ⟨level, hlow, hhigh, hforbids⟩
      · exact ⟨fun hall => absurd (hall own hown) hreads, fun _ => rfl⟩
      · have hhigh : level ≤ height items := by simpa [machine] using hhigh
        exact absurd hforbids (hdepth level hlow hhigh)
  | ok built =>
      obtain ⟨hbuilt, hreads⟩ := built_of_applyAll hitems happly
      refine ⟨fun _ => congrArg Except.ok hbuilt, ?_⟩
      rintro ⟨own, hown, hunread⟩
      exact absurd (hreads own hown) hunread

end Converter

end XmlToJson
