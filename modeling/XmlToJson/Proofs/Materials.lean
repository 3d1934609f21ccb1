import XmlToJson.Proofs.Shapes

/-!
# What data is made of

Data is gathered from scalars and names, and gathering makes none of its own but the empty text and
the key of texts.  `Value.MadeOf` says that every scalar of a value is one of some leaves, that
every key is one of some names, and that no object has a key twice.  It has one constructor for each
kind of value, with the leaves and the names as parameters, so one statement serves for all kinds of
scalars and characters (`madeOf_of_convert`).

What is done with values keeps it:

* adding a value to an object makes an array or extends one (`MadeOf.extend`), and an object gathers
  its members key by key (`madeOf_gather`), where a key that comes again is not a new one
  (`nodup_firstKeys`);
* folding gives back what was gathered, or an empty text, which has to be among the leaves
  (`madeOf_fold`, `madeOf_foldSelfClosing`).

So it is enough to look at what goes in.  `Event.Gives` takes the names and the texts from an event;
what a close tag repeats and what is skipped is not among them.  `Spells.madeOf` is the induction on
the items of a document: an item of one event contributes a text if anything (`madeOf_of_item?`),
and an element contributes what its attributes and its content were folded to.

The text of a scalar is related to its value by the converter: it stays as it is, or is read as a
scalar if the settings do not forbid it (`valueOf_cases`).  What kind of texts and names comes in
decides what can be said of the data, and later files choose the kind: characters of the document,
finite numbers, or texts alone.  `MadeOf.mono` and `UsesOnly.mono` go from one kind to another.
-/

namespace XmlToJson

namespace Value

/-- Whether the scalars of a value are among the leaves and its keys among the names, where no
object has a key twice. -/
inductive MadeOf (leaf : Value → Prop) (name : String → Prop) : Value → Prop where
  | scalar {value : Value} : value.isContainer = false → leaf value → MadeOf leaf name value
  | list {items : List Value} :
      (∀ item ∈ items, MadeOf leaf name item) → MadeOf leaf name (.list items)
  | gathered {items : List Value} :
      (∀ item ∈ items, MadeOf leaf name item) → MadeOf leaf name (.gathered items)
  | object {members : List (String × Value)} :
      (members.map (·.1)).Nodup → (∀ member ∈ members, name member.1) →
      (∀ member ∈ members, MadeOf leaf name member.2) → MadeOf leaf name (.object members)

/-- Whether the text of a value, if it is a string, is among the given texts. -/
def HoldsText (written : String → Prop) (value : Value) : Prop :=
  ∀ text, value = .string text → written text

/-- Whether the strings and the keys of a value have no other characters than those of a kind. -/
def UsesOnly (P : Char → Prop) (value : Value) : Prop :=
  value.MadeOf (HoldsText fun text => ∀ c ∈ text.toList, P c) fun key => ∀ c ∈ key.toList, P c

variable {leaf : Value → Prop} {name : String → Prop} {value first : Value}

theorem MadeOf.mono {otherLeaf : Value → Prop} {otherName : String → Prop}
    (h : value.MadeOf leaf name) (hleaf : ∀ value, leaf value → otherLeaf value)
    (hname : ∀ key, name key → otherName key) : value.MadeOf otherLeaf otherName := by
  induction h with
  | scalar hscalar hvalue => exact .scalar hscalar (hleaf _ hvalue)
  | list _ ih => exact .list ih
  | gathered _ ih => exact .gathered ih
  | object hdistinct hnames _ ih =>
      exact .object hdistinct (fun member hmem => hname _ (hnames member hmem)) ih

theorem UsesOnly.mono {P Q : Char → Prop} (h : value.UsesOnly P) (himp : ∀ c, P c → Q c) :
    value.UsesOnly Q :=
  MadeOf.mono h (fun _ hleaf text htext c hc => himp c (hleaf text htext c hc))
    fun _ hname c hc => himp c (hname c hc)

theorem MadeOf.leaf_of_scalar (h : value.MadeOf leaf name) (hscalar : value.isContainer = false) :
    leaf value := by
  cases h with
  | scalar _ hvalue => exact hvalue
  | list | gathered | object => simp [isContainer] at hscalar

theorem madeOf_list_iff {items : List Value} :
    MadeOf leaf name (.list items) ↔ ∀ item ∈ items, item.MadeOf leaf name := by
  refine ⟨fun h => ?_, .list⟩
  cases h with
  | scalar hscalar _ => simp [isContainer] at hscalar
  | list hitems => exact hitems

theorem madeOf_gathered_iff {items : List Value} :
    MadeOf leaf name (.gathered items) ↔ ∀ item ∈ items, item.MadeOf leaf name := by
  refine ⟨fun h => ?_, .gathered⟩
  cases h with
  | scalar hscalar _ => simp [isContainer] at hscalar
  | gathered hitems => exact hitems

theorem madeOf_object_iff {members : List (String × Value)} :
    MadeOf leaf name (.object members) ↔ (members.map (·.1)).Nodup ∧
      (∀ member ∈ members, name member.1) ∧ ∀ member ∈ members, member.2.MadeOf leaf name := by
  refine ⟨fun h => ?_, fun ⟨hdistinct, hnames, hmembers⟩ => .object hdistinct hnames hmembers⟩
  cases h with
  | scalar hscalar _ => simp [isContainer] at hscalar
  | object hdistinct hnames hmembers => exact ⟨hdistinct, hnames, hmembers⟩

/-- The items of an array that is made or extended. -/
theorem MadeOf.extend (hfirst : first.MadeOf leaf name) (hvalue : value.MadeOf leaf name) :
    MadeOf leaf name (.gathered (first.gatheredItems ++ [value])) := by
  have hitems : ∀ item ∈ first.gatheredItems, item.MadeOf leaf name := by
    cases first with
    | gathered items => exact madeOf_gathered_iff.1 hfirst
    | _ => exact List.forall_mem_singleton.2 hfirst
  exact .gathered (List.forall_mem_append.2 ⟨hitems, List.forall_mem_singleton.2 hvalue⟩)

end Value

/-! ## Objects -/

theorem nodup_firstKeys (contributions : Contributions) : (firstKeys contributions).Nodup := by
  induction contributions with
  | nil => exact List.nodup_nil
  | cons contribution rest ih =>
      rw [firstKeys, List.nodup_cons]
      exact ⟨by simp, ih.filter _⟩

theorem forall_mem_firstKeys {name : String → Prop} {contributions : Contributions}
    (h : ∀ contribution ∈ contributions, name contribution.1) :
    ∀ key ∈ firstKeys contributions, name key := by
  induction contributions with
  | nil => simp [firstKeys]
  | cons contribution rest ih =>
      obtain ⟨hfirst, hrest⟩ := List.forall_mem_cons.1 h
      rw [firstKeys, List.forall_mem_cons]
      exact ⟨hfirst, fun key hmem => ih hrest key (List.mem_filter.1 hmem).1⟩

/-- Whether contributions are made of leaves and names. -/
def Contributions.MadeOf (leaf : Value → Prop) (name : String → Prop)
    (contributions : Contributions) : Prop :=
  ∀ contribution ∈ contributions, name contribution.1 ∧ contribution.2.MadeOf leaf name

namespace Object

variable {leaf : Value → Prop} {name : String → Prop} {contributions : Contributions}

theorem madeOf_members (h : Contributions.MadeOf leaf name contributions) :
    ∀ member ∈ (gather contributions).members, member.2.MadeOf leaf name :=
  forall_members_gather (fun _ hvalue => hvalue) (fun _ _ => Value.MadeOf.extend)
    fun contribution hmem => (h contribution hmem).2

/-- An object is made of what it gathers, and has no key twice. -/
theorem madeOf_gather (h : Contributions.MadeOf leaf name contributions) :
    (gather contributions).toValue.MadeOf leaf name := by
  have hkeys : (gather contributions).members.map (·.1) = firstKeys contributions :=
    keys_gather contributions
  refine .object ?_ (fun member hmem => ?_) (madeOf_members h)
  · rw [hkeys]
    exact nodup_firstKeys contributions
  · refine forall_mem_firstKeys (fun contribution hmem => (h contribution hmem).1) member.1 ?_
    rw [← hkeys]
    exact List.mem_map_of_mem hmem

theorem madeOf_fold (hempty : leaf (.string ""))
    (h : Contributions.MadeOf leaf name contributions) :
    (gather contributions).fold.MadeOf leaf name := by
  rcases (gather contributions).fold_cases with
    hnone | ⟨value, hsingle, hfold⟩ | ⟨-, -, hfold⟩
  · rw [hnone]
    exact .scalar rfl hempty
  · rw [hfold]
    exact madeOf_members h (contentKey, value) (by rw [hsingle]; exact List.mem_cons_self)
  · rw [hfold]
    exact madeOf_gather h

theorem madeOf_foldSelfClosing (hempty : leaf (.string ""))
    (h : Contributions.MadeOf leaf name contributions) :
    (gather contributions).foldSelfClosing.MadeOf leaf name := by
  unfold foldSelfClosing
  split
  · exact .scalar rfl hempty
  · exact madeOf_gather h

end Object

/-! ## Items -/

/-- Whether the names that an event gives are among the names, and the texts whose values it gives
are among the texts. -/
def Event.Gives (name written : String → Prop) : Event → Prop
  | .opened tag => name tag
  | .attr key own? => name key ∧ ∀ own ∈ own?, written own
  | .text own | .cdata own => written own
  | _ => True

section Items

variable {value : String → Value} {leaf : Value → Prop} {name written : String → Prop}
  (hempty : leaf (.string "")) (hcontent : name Object.contentKey)
  (hvalue : ∀ text, written text → (value text).MadeOf leaf name)

include hcontent hvalue in
theorem madeOf_textContributions {text : String} (htext : written text) :
    Contributions.MadeOf leaf name (textContributions value text) := by
  intro contribution hmem
  unfold textContributions at hmem
  split at hmem
  · simp at hmem
  · obtain rfl := List.mem_singleton.1 hmem
    exact ⟨hcontent, hvalue text htext⟩

include hempty hvalue in
theorem madeOf_attributeContributions {attributes : Attributes} {inTag : List Entry}
    (hevents : inTag.map (·.event) = attributeEvents attributes)
    (hgives : ∀ entry ∈ inTag, entry.event.Gives name written) :
    Contributions.MadeOf leaf name (attributeContributions value attributes) := by
  intro contribution hmem
  obtain ⟨⟨key, text⟩, hattribute, rfl⟩ := List.mem_map.1 hmem
  have hevent : Event.attr key text ∈ inTag.map (·.event) := by
    rw [hevents]
    exact List.mem_map.2 ⟨(key, text), hattribute, rfl⟩
  obtain ⟨entry, hentry, heq⟩ := List.mem_map.1 hevent
  have hgiven := hgives entry hentry
  rw [heq] at hgiven
  refine ⟨hgiven.1, ?_⟩
  cases text with
  | none => exact .scalar rfl hempty
  | some own => exact hvalue own (hgiven.2 own rfl)

include hcontent hvalue in
/-- An item of one event contributes a text if anything. -/
theorem madeOf_of_item? {event : Event} {item : Item} (h : event.item? = some item)
    (hgives : event.Gives name written) :
    Contributions.MadeOf leaf name (item.contributions value) := by
  cases event <;> simp only [Event.item?, Option.some.injEq, reduceCtorEq] at h <;> subst h
  case text text => exact madeOf_textContributions hcontent hvalue hgives
  case cdata text => exact madeOf_textContributions hcontent hvalue hgives
  all_goals simp [Contributions.MadeOf, Item.contributions]

include hempty hcontent hvalue

/-- Items contribute what is made of the names and the values of the texts that their events
give. -/
theorem Spells.madeOf {entries : List Entry} {items : List Item} (h : Spells entries items)
    (hgives : ∀ entry ∈ entries, entry.event.Gives name written) :
    Contributions.MadeOf leaf name (contributions value items) := by
  induction h with
  | nil => simp [Contributions.MadeOf, contributions]
  | leaf hitem _ ih =>
      obtain ⟨hfirst, hrest⟩ := List.forall_mem_cons.1 hgives
      exact List.forall_mem_append.2 ⟨madeOf_of_item? hcontent hvalue hitem hfirst, ih hrest⟩
  | @selfClosing opening ending tag attributes inTag rest items hopening hattributes _ _ ih =>
      simp only [List.forall_mem_cons, List.forall_mem_append] at hgives
      obtain ⟨htag, hinTag, -, hrest⟩ := hgives
      rw [hopening] at htag
      have hown := madeOf_attributeContributions hempty hvalue hattributes hinTag
      refine List.forall_mem_append.2 ⟨List.forall_mem_singleton.2 ⟨htag, ?_⟩, ih hrest⟩
      exact Object.madeOf_foldSelfClosing hempty hown
  | @element opening ending closing tag attributes inTag inner rest content items hopening
      hattributes _ _ _ _ ihinner ih =>
      simp only [List.forall_mem_cons, List.forall_mem_append] at hgives
      obtain ⟨htag, hinTag, -, hinner, -, hrest⟩ := hgives
      rw [hopening] at htag
      have hown : Contributions.MadeOf leaf name
          (attributeContributions value attributes ++ contributions value content) :=
        List.forall_mem_append.2
          ⟨madeOf_attributeContributions hempty hvalue hattributes hinTag, ihinner hinner⟩
      refine List.forall_mem_append.2 ⟨List.forall_mem_singleton.2 ⟨htag, ?_⟩, ih hrest⟩
      exact Object.madeOf_fold hempty hown

end Items

/-! ## Documents -/

namespace Converter

variable {converter : Converter} {text : String} {found : Conversion}

/-- A text stays as it is, or is read as a scalar if the settings do not forbid it. -/
theorem valueOf_cases (converter : Converter) (text : String) :
    converter.valueOf text = .string text ∨
      (converter.settings.keepStrings.isTruthy = false ∧
        Scalar.ofText text = .ok (converter.valueOf text)) := by
  unfold valueOf
  cases hscalar : converter.scalar? text with
  | error failure => exact .inl rfl
  | ok value =>
      unfold scalar? at hscalar
      split at hscalar
      · obtain rfl := Except.ok.inj hscalar
        exact .inl rfl
      · next hkeep =>
          split at hscalar
          · next read hread =>
              obtain rfl := Except.ok.inj hscalar
              exact .inr ⟨Bool.eq_false_iff.2 hkeep, hread⟩
          · simp at hscalar

/-- The data of an accepted document is made of the names and the values of the texts that its
events give. -/
theorem madeOf_of_convert {leaf : Value → Prop} {name written : String → Prop}
    (h : (converter.convert text).outcome = .ok found) (hempty : leaf (.string ""))
    (hcontent : name Object.contentKey)
    (hvalue : ∀ own, written own → (converter.valueOf own).MadeOf leaf name)
    (hgives : ∀ entry ∈ (Trace.ofText text).entries, entry.event.Gives name written) :
    found.data.toValue.MadeOf leaf name := by
  obtain ⟨-, hfault, -⟩ := follow_of_convert h
  obtain ⟨items, hitems⟩ := exists_spells text hfault
  have hdata : found.data = .gather (contributions converter.valueOf items) :=
    congrArg Conversion.data (eq_conversionOf h hitems)
  rw [hdata]
  exact Object.madeOf_gather (hitems.madeOf hempty hcontent hvalue hgives)

end Converter

end XmlToJson
