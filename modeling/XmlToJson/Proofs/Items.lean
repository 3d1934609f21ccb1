import XmlToJson.Proofs.Machine

/-!
# The items of a document

A document is a list of items: texts, CDATA sections, comments, processing instructions,
declarations and elements, which hold items themselves.  `Spells` says which sequences of events
stand for a list of items.  An element is spelled by its name, its attributes, the end of its tag,
what it holds and a close tag of the same name; nothing else closes it.

The main statement is `exists_spells`: a text that is read to its end has items.

## Strategy

The events of a text come one after the other, and an element shows only when its close tag is
reached.  So the induction is on the events from the last one, and its invariant says what the
events from some place on do with what is open there.

* `Completes` says that events close the open elements, the innermost one first, with items in front
  of each close tag and items behind the last one.  `Nest.Completes` says the same where a tag is
  being read, whose attributes come first.
* `Nest.Completes.step` is the step: what one event leaves open, the events behind it close.  Its
  cases are those of an event that fits its place: an item goes in front of the others
  (`Completes.prepend`), a close tag ends the items of its element (`Completes.close`), the end of a
  tag begins them (`Nest.Completes.ofTag`), and an attribute goes in front of the other ones
  (`Nest.Completes.ofAttribute`).
* At the end of the text nothing is open, as a text can only end outside every element
  (`place_of_nextReading_none`).

`Balanced` is what is left of this when only the tags are looked at, and follows from it
(`Spells.balanced`).
-/

namespace XmlToJson

/-- The attributes of a tag, each with its value if it has one. -/
abbrev Attributes := List (String × Option String)

/-- A piece of a document. -/
inductive Item where
  | text (value : String)
  | cdata (value : String)
  | comment (body : String)
  | instruction (body : String)
  | declaration
  /-- An element whose tag closes itself. -/
  | selfClosing (tag : String) (attributes : Attributes)
  | element (tag : String) (attributes : Attributes) (content : List Item)

/-- The item that one event stands for. -/
def Event.item? : Event → Option Item
  | .text value => some (.text value)
  | .cdata value => some (.cdata value)
  | .comment body => some (.comment body)
  | .instruction body => some (.instruction body)
  | .declaration => some .declaration
  | _ => none

/-- The events of attributes. -/
def attributeEvents (attributes : Attributes) : List Event :=
  attributes.map fun (name, value) => .attr name value

/-- Whether a sequence of events stands for a list of items. -/
inductive Spells : List Entry → List Item → Prop where
  | nil : Spells [] []
  | leaf {entry : Entry} {item : Item} {rest : List Entry} {items : List Item} :
      entry.event.item? = some item → Spells rest items → Spells (entry :: rest) (item :: items)
  | selfClosing {opening ending : Entry} {tag : String} {attributes : Attributes}
      {inTag rest : List Entry} {items : List Item} :
      opening.event = .opened tag → inTag.map (·.event) = attributeEvents attributes →
      ending.event = .selfClosed → Spells rest items →
      Spells (opening :: (inTag ++ ending :: rest)) (.selfClosing tag attributes :: items)
  | element {opening ending closing : Entry} {tag : String} {attributes : Attributes}
      {inTag inner rest : List Entry} {content items : List Item} :
      opening.event = .opened tag → inTag.map (·.event) = attributeEvents attributes →
      ending.event = .entered → Spells inner content → closing.event = .closed tag →
      Spells rest items →
      Spells (opening :: (inTag ++ ending :: (inner ++ closing :: rest)))
        (.element tag attributes content :: items)

/-! ## Closing what is open -/

/-- Whether a sequence of events closes the open elements and goes on with items. -/
def Completes : List String → List Entry → Prop
  | [], entries => ∃ items, Spells entries items
  | tag :: outer, entries =>
      ∃ inner content closing rest, entries = inner ++ closing :: rest ∧ Spells inner content ∧
        closing.event = .closed tag ∧ Completes outer rest

/-- Whether a sequence of events ends the tag that is being read, closes the open
elements and goes on with items. -/
def Nest.Completes (nest : Nest) (entries : List Entry) : Prop :=
  match nest.tag with
  | none => XmlToJson.Completes nest.openTags entries
  | some tag =>
      ∃ inTag attributes ending rest, entries = inTag ++ ending :: rest ∧
        inTag.map (·.event) = attributeEvents attributes ∧
        (ending.event = .selfClosed ∧ XmlToJson.Completes nest.openTags rest ∨
          ending.event = .entered ∧ XmlToJson.Completes (tag :: nest.openTags) rest)

theorem Completes.prepend (front : List Entry) (item : Item)
    (hitem : ∀ {rest items}, Spells rest items → Spells (front ++ rest) (item :: items))
    {openTags : List String} {rest : List Entry} (h : Completes openTags rest) :
    Completes openTags (front ++ rest) := by
  cases openTags with
  | nil =>
      obtain ⟨items, hitems⟩ := h
      exact ⟨item :: items, hitem hitems⟩
  | cons tag outer =>
      obtain ⟨inner, content, closing, rest, rfl, hinner, hclosing, hrest⟩ := h
      exact ⟨front ++ inner, item :: content, closing, rest, by simp, hitem hinner, hclosing, hrest⟩

theorem Completes.close {closing : Entry} {tag : String} (hclosing : closing.event = .closed tag)
    {outer : List String} {rest : List Entry} (h : Completes outer rest) :
    Completes (tag :: outer) (closing :: rest) :=
  ⟨[], [], closing, rest, rfl, .nil, hclosing, h⟩

theorem Nest.Completes.ofTag {opening : Entry} {tag : String}
    (hopening : opening.event = .opened tag) {openTags : List String} {rest : List Entry}
    (h : Nest.Completes ⟨openTags, some tag⟩ rest) :
    XmlToJson.Completes openTags (opening :: rest) := by
  obtain ⟨inTag, attributes, ending, rest, rfl, hattributes, hend⟩ := h
  -- Both ends make one item of the tag; an end with content takes its close tag along.
  rcases hend with ⟨hending, hrest⟩ | ⟨hending, hrest⟩
  · have hitem : ∀ {rest items}, Spells rest items →
        Spells (opening :: (inTag ++ [ending]) ++ rest) (.selfClosing tag attributes :: items) := by
      intro rest items hitems
      simpa using Spells.selfClosing hopening hattributes hending hitems
    simpa using hrest.prepend _ _ hitem
  · obtain ⟨inner, content, closing, rest, rfl, hinner, hclosing, hrest⟩ := hrest
    have hitem : ∀ {rest items}, Spells rest items →
        Spells (opening :: (inTag ++ ending :: (inner ++ [closing])) ++ rest)
          (.element tag attributes content :: items) := by
      intro rest items hitems
      simpa using Spells.element hopening hattributes hending hinner hclosing hitems
    simpa using hrest.prepend _ _ hitem

theorem Nest.Completes.ofAttribute {entry : Entry} {name : String} {value : Option String}
    (hevent : entry.event = .attr name value) {openTags : List String} {tag : String}
    {rest : List Entry} (h : Nest.Completes ⟨openTags, some tag⟩ rest) :
    Nest.Completes ⟨openTags, some tag⟩ (entry :: rest) := by
  obtain ⟨inTag, attributes, ending, rest, rfl, hattributes, hend⟩ := h
  refine ⟨entry :: inTag, (name, value) :: attributes, ending, rest, rfl, ?_, hend⟩
  rw [List.map_cons, hattributes, hevent]
  rfl

/-- What one event leaves open, the events behind it close. -/
theorem Nest.Completes.step {nest : Nest} {pending : Option Token} {entry : Entry}
    {rest : List Entry} (hfits : entry.event.Fits (nest.place pending))
    (h : (nest.after entry.event).Completes rest) : nest.Completes (entry :: rest) := by
  obtain ⟨openTags, tag⟩ := nest
  cases tag with
  | some tag =>
      -- In a tag only an attribute or one of its two ends fits.
      cases hevent : entry.event <;> rw [hevent] at hfits h <;> try contradiction
      · exact h.ofAttribute hevent
      · exact ⟨[], [], entry, rest, rfl, rfl, .inr ⟨hevent, h⟩⟩
      · exact ⟨[], [], entry, rest, rfl, rfl, .inl ⟨hevent, h⟩⟩
  | none =>
      -- Between tags an event is an item of its own, begins an element or closes one.
      have hleaf : ∀ {item}, entry.event.item? = some item →
          XmlToJson.Completes openTags rest → XmlToJson.Completes openTags (entry :: rest) :=
        fun hitem hrest => hrest.prepend [entry] _ fun hitems => .leaf hitem hitems
      cases hevent : entry.event with
      | opened tag =>
          rw [hevent] at h
          exact h.ofTag hevent
      | attr name value => cases openTags <;> simp [hevent, Event.Fits] at hfits
      | entered => cases openTags <;> simp [hevent, Event.Fits] at hfits
      | selfClosed => cases openTags <;> simp [hevent, Event.Fits] at hfits
      | text | cdata | comment | instruction | declaration =>
          rw [hevent] at h
          exact hleaf (congrArg Event.item? hevent) h
      | closed found =>
          rw [hevent] at hfits h
          cases openTags with
          | nil => exact hfits.elim
          | cons tag outer =>
              obtain rfl : found = tag := hfits
              exact Completes.close hevent h

/-! ## Texts that end -/

/-- A text can only end outside every element. -/
theorem place_of_nextReading_none {place : Place} {cursor stop : Cursor}
    (h : nextReading place cursor = .ok none stop) : place = .document := by
  rcases place with - | tag | - | token
  · rfl
  · obtain ⟨found, -, hsome⟩ := ok_of_map h
    simp at hsome
  · obtain ⟨token, between, -, h⟩ := ok_of_bind h
    obtain ⟨found, -, hsome⟩ := ok_of_map h
    simp at hsome
  · obtain ⟨found, -, hsome⟩ := ok_of_map h
    simp at hsome

/-- Outside every element nothing is open. -/
theorem Nest.eq_of_place_document {nest : Nest} {pending : Option Token}
    (h : nest.place pending = .document) : nest = ⟨[], none⟩ := by
  rcases nest with ⟨- | ⟨tag, outer⟩, - | name⟩ <;> simp [Nest.place] at h ⊢

/-- The events up to the end of a text close what is open. -/
theorem Reader.completes_trace (reader : Reader) (h : reader.trace.fault = none) :
    reader.nest.Completes reader.trace.entries := by
  -- Backwards from the end of the text: each event leaves open what the rest closes.
  fun_induction Reader.trace reader with
  | case1 reader error cursor hread => simp at h
  | case2 reader cursor hread =>
      rw [Nest.eq_of_place_document (place_of_nextReading_none hread)]
      exact ⟨[], .nil⟩
  | case3 reader reading cursor hread rest ih =>
      exact Nest.Completes.step (fits_of_nextReading hread) (ih h)

/-- A text that is read to its end has items. -/
theorem exists_spells (text : String) (h : (Trace.ofText text).fault = none) :
    ∃ items, Spells (Trace.ofText text).entries items :=
  Reader.completes_trace (Reader.ofText text) h

/-! ## Tags -/

/-- What an event is among the tags of a document. -/
inductive TagMark where
  | opened (tag : String)
  | selfClosed
  | closed (tag : String)
  deriving DecidableEq, Repr

def Event.mark? : Event → Option TagMark
  | .opened tag => some (.opened tag)
  | .selfClosed => some .selfClosed
  | .closed tag => some (.closed tag)
  | _ => none

/-- The tags of a document in their order. -/
def tagMarks (entries : List Entry) : List TagMark :=
  entries.filterMap (·.event.mark?)

/-- Whether every opening tag closes itself or has a close tag of its own name, with
nothing but whole elements between the two. -/
inductive Balanced : List TagMark → Prop where
  | nil : Balanced []
  | selfClosing {tag : String} {marks : List TagMark} :
      Balanced marks → Balanced (.opened tag :: .selfClosed :: marks)
  | element {tag : String} {inner marks : List TagMark} :
      Balanced inner → Balanced marks →
      Balanced (.opened tag :: (inner ++ .closed tag :: marks))

@[simp] theorem tagMarks_append (first second : List Entry) :
    tagMarks (first ++ second) = tagMarks first ++ tagMarks second :=
  List.filterMap_append

theorem tagMarks_cons (entry : Entry) (rest : List Entry) :
    tagMarks (entry :: rest) = entry.event.mark?.toList ++ tagMarks rest := by
  unfold tagMarks
  cases hmark : entry.event.mark? <;> simp [hmark]

theorem tagMarks_attributes {inTag : List Entry} {attributes : Attributes}
    (h : inTag.map (·.event) = attributeEvents attributes) : tagMarks inTag = [] := by
  induction inTag generalizing attributes with
  | nil => rfl
  | cons entry rest ih =>
      obtain - | ⟨⟨name, value⟩, others⟩ := attributes
      · simp [attributeEvents] at h
      · obtain ⟨hevent, hrest⟩ := List.cons.inj h
        have hmark : entry.event.mark? = none := congrArg Event.mark? hevent
        rw [tagMarks_cons, hmark, ih hrest]
        rfl

/-- The tags of a document that has items are balanced. -/
theorem Spells.balanced {entries : List Entry} {items : List Item} (h : Spells entries items) :
    Balanced (tagMarks entries) := by
  induction h with
  | nil => exact .nil
  | @leaf entry item rest items hitem hrest ih =>
      have hmark : entry.event.mark? = none := by
        cases hevent : entry.event <;> rw [hevent] at hitem <;> simp_all [Event.item?, Event.mark?]
      rw [tagMarks_cons, hmark]
      exact ih
  | selfClosing hopening hattributes hending hrest ih =>
      rw [tagMarks_cons, tagMarks_append, tagMarks_attributes hattributes, tagMarks_cons, hopening,
        hending]
      exact .selfClosing ih
  | element hopening hattributes hending hinner hclosing hrest ihinner ih =>
      rw [tagMarks_cons, tagMarks_append, tagMarks_attributes hattributes, tagMarks_cons,
        tagMarks_append, tagMarks_cons, hopening, hending, hclosing]
      exact .element ihinner ih

end XmlToJson
