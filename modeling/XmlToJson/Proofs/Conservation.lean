import XmlToJson.Proofs.Effects

/-!
# Nothing is lost and nothing is made up

Attributes, texts and children of an element come together in one object, in which a key can be met
again, and an object with nothing but a text is reduced to it.  None of this loses or repeats a
value: the scalars of the result are those that were read, in some order, and an empty text for
every element that has nothing (`leaves_of_convert`).

## Strategy

The scalars of a value are its `leaves`, as a list, and two lists are compared up to their order.
So the statement is one of conservation, and each operation on values has to be looked at once.

* **Adding a value to an object** has three cases: the key is new, it holds a gathered array, or it
  holds anything else, which begins an array then.  In each case the leaves of the value are added
  and nothing else changes (`Object.leaves_append`); `itemLeaves_gatheredItems` is the last two at
  once, since an array begins with the items that were there.
* **Folding** gives the value of the only key back, or the object, or an empty text for an object
  without members, which is the only leaf that is made up (`Object.leaves_fold`).  A tag that closes
  itself never gives a value back but has the same leaves (`Object.leaves_foldSelfClosing`).
* **Items.**  `Item.texts` lists the texts in an item as they are written, with an empty text for
  each element to which nothing is added.  Whether something is added can be seen from the items
  (`Item.isSilent`, `isEmpty_contributions`).  `memberLeaves_items` is the induction: what items
  contribute has the values of their texts for leaves.
-/

namespace XmlToJson

/-! ## Leaves -/

namespace Value

mutual

/-- The scalars in a value, in their order. -/
def leaves : Value → List Value
  | .list items => itemLeaves items
  | .gathered items => itemLeaves items
  | .object members => memberLeaves members
  | .null => [.null]
  | .bool value => [.bool value]
  | .integer value => [.integer value]
  | .float value => [.float value]
  | .string text => [.string text]

def itemLeaves : List Value → List Value
  | [] => []
  | item :: rest => item.leaves ++ itemLeaves rest

def memberLeaves : List (String × Value) → List Value
  | [] => []
  | (_, value) :: rest => value.leaves ++ memberLeaves rest

end

theorem itemLeaves_append (first second : List Value) :
    itemLeaves (first ++ second) = itemLeaves first ++ itemLeaves second := by
  induction first with
  | nil => rfl
  | cons item rest ih => simp only [List.cons_append, itemLeaves, ih, List.append_assoc]

/-- The items that an array begins with when it is gathered hold the leaves of the value. -/
theorem itemLeaves_gatheredItems (value : Value) :
    itemLeaves value.gatheredItems = value.leaves := by
  cases value with
  | gathered items => rfl
  | _ => exact List.append_nil _

/-- Replacing the value of a key by one that has more leaves adds these leaves, and nothing is
lost. -/
theorem memberLeaves_set {key : String} {value : Value} {more : List Value}
    {members : List (String × Value)}
    (hvalue : value.leaves = ((members.lookup key).elim [] leaves) ++ more) :
    (memberLeaves (Entries.set key value members)).Perm (memberLeaves members ++ more) := by
  induction members with
  | nil =>
      have hvalue : value.leaves = more := hvalue
      simp [Entries.set, memberLeaves, hvalue]
  | cons member rest ih =>
      obtain ⟨name, old⟩ := member
      rw [Entries.lookup_cons] at hvalue
      rw [Entries.set]
      by_cases hname : name = key
      · have hvalue : value.leaves = old.leaves ++ more := by simpa [hname] using hvalue
        rw [if_pos hname, memberLeaves, memberLeaves, hvalue, List.append_assoc, List.append_assoc]
        exact List.perm_append_comm.append_left _
      · have hkey : ¬ key = name := fun h => hname h.symm
        rw [if_neg hkey] at hvalue
        rw [if_neg hname, memberLeaves, memberLeaves, List.append_assoc]
        exact (ih hvalue).append_left _

end Value

namespace Object

/-- The scalars in an object. -/
def leaves (object : Object) : List Value := Value.memberLeaves object.members

/-- Adding a value adds its leaves, whatever stands under the key. -/
theorem leaves_append (object : Object) (key : String) (value : Value) :
    (object.append key value).leaves.Perm (object.leaves ++ value.leaves) := by
  rw [append_eq]
  refine Value.memberLeaves_set ?_
  show (extend value (object.get? key)).leaves = ((object.get? key).elim [] Value.leaves) ++ _
  cases object.get? key with
  | none => rfl
  | some first =>
      rw [extend, Value.leaves, Value.itemLeaves_append, Value.itemLeaves_gatheredItems]
      simp [Value.itemLeaves]

theorem leaves_appendAll (object : Object) (contributions : Contributions) :
    (object.appendAll contributions).leaves.Perm
      (object.leaves ++ Value.memberLeaves contributions) := by
  induction contributions generalizing object with
  | nil => simp [Value.memberLeaves]
  | cons contribution rest ih =>
      obtain ⟨key, value⟩ := contribution
      calc (object.appendAll ((key, value) :: rest)).leaves
          = ((object.append key value).appendAll rest).leaves := rfl
        List.Perm _ ((object.append key value).leaves ++ Value.memberLeaves rest) := ih _
        List.Perm _ ((object.leaves ++ value.leaves) ++ Value.memberLeaves rest) :=
          (leaves_append object key value).append_right _
        _ = object.leaves ++ Value.memberLeaves ((key, value) :: rest) := by
          rw [List.append_assoc, Value.memberLeaves]

/-- The empty text that an object without members is reduced to. -/
def emptyText (object : Object) : List Value :=
  if object.isEmpty then [.string ""] else []

/-- Folding keeps the leaves; only an object without any gets one. -/
theorem leaves_fold (object : Object) :
    object.fold.leaves = object.emptyText ++ object.leaves := by
  obtain ⟨members⟩ := object
  match members with
  | [] => rfl
  | [(key, value)] =>
      show (if key = contentKey then value else _).leaves = value.leaves ++ []
      split
      · exact (List.append_nil _).symm
      · rfl
  | _ :: _ :: _ => rfl

theorem leaves_foldSelfClosing (object : Object) :
    object.foldSelfClosing.leaves = object.emptyText ++ object.leaves := by
  obtain ⟨members⟩ := object
  cases members <;> rfl

/-- Something that is contributed makes a member. -/
theorem isEmpty_gather (contributions : Contributions) :
    (gather contributions).isEmpty = contributions.isEmpty := by
  have hkeys : (gather contributions).isEmpty = (firstKeys contributions).isEmpty := by
    rw [← keys_gather, isEmpty, keys, List.isEmpty_map]
  rw [hkeys]
  cases contributions with
  | nil => rfl
  | cons contribution rest => rfl

end Object

/-! ## The texts of items -/

/-- Whether an item adds nothing to the element around it. -/
def Item.isSilent : Item → Bool
  | .text value => value == ""
  | .cdata value => value == ""
  | .comment _ => true
  | .instruction _ => true
  | .declaration => true
  | .selfClosing .. => false
  | .element .. => false

/-- The texts of attributes; one without a value has an empty text. -/
def attributeTexts (attributes : Attributes) : List String :=
  attributes.map fun (_, text) => text.getD ""

/-- The empty text that stands for an element to which nothing is added. -/
def emptyTexts (attributes : Attributes) (content : List Item) : List String :=
  if attributes.isEmpty && content.all Item.isSilent then [""] else []

mutual

def Item.texts : Item → List String
  | .text text => textScalars text
  | .cdata text => textScalars text
  | .comment _ => []
  | .instruction _ => []
  | .declaration => []
  | .selfClosing _ attributes => emptyTexts attributes [] ++ attributeTexts attributes
  | .element _ attributes content =>
      emptyTexts attributes content ++ (attributeTexts attributes ++ texts content)

/-- The texts in items: the values of attributes, the texts and sections that are not empty, and
an empty text for each element to which nothing is added. -/
def texts : List Item → List String
  | [] => []
  | item :: rest => item.texts ++ texts rest

end

section Contributions

variable {value : String → Value}

theorem isEmpty_contributions_item (item : Item) :
    (item.contributions value).isEmpty = item.isSilent := by
  have htext : ∀ text : String, (textContributions value text).isEmpty = (text == "") := by
    intro text
    unfold textContributions
    split <;> simp_all
  cases item with
  | text text => simp only [Item.contributions, Item.isSilent, htext]
  | cdata text => simp only [Item.contributions, Item.isSilent, htext]
  | comment | instruction | declaration | selfClosing | element =>
      simp [Item.contributions, Item.isSilent]

theorem isEmpty_append (first second : Contributions) :
    (first ++ second).isEmpty = (first.isEmpty && second.isEmpty) := by
  cases first <;> rfl

theorem isEmpty_contributions (items : List Item) :
    (contributions value items).isEmpty = items.all Item.isSilent := by
  induction items with
  | nil => simp [contributions]
  | cons item rest ih =>
      rw [contributions, isEmpty_append, isEmpty_contributions_item, ih, List.all_cons]

theorem memberLeaves_append (first second : Contributions) :
    Value.memberLeaves (first ++ second) =
      Value.memberLeaves first ++ Value.memberLeaves second := by
  induction first with
  | nil => rfl
  | cons contribution rest ih =>
      obtain ⟨key, own⟩ := contribution
      simp only [List.cons_append, Value.memberLeaves, ih, List.append_assoc]

variable (hempty : value "" = .string "") (hscalar : ∀ text, (value text).leaves = [value text])

include hempty in
/-- An element to which nothing is added holds an empty text. -/
theorem emptyText_gather (attributes : Attributes) (content : List Item) :
    (Object.gather (attributeContributions value attributes ++
        contributions value content)).emptyText =
      (emptyTexts attributes content).map value := by
  rw [Object.emptyText, Object.isEmpty_gather, isEmpty_append, isEmpty_contributions,
    attributeContributions, List.isEmpty_map, emptyTexts]
  split
  · rw [List.map_singleton, hempty]
  · rfl

include hscalar in
theorem memberLeaves_textContributions (text : String) :
    Value.memberLeaves (textContributions value text) = (textScalars text).map value := by
  unfold textContributions textScalars
  split
  · rfl
  · simp [Value.memberLeaves, hscalar]

include hempty hscalar in
theorem memberLeaves_attributeContributions (attributes : Attributes) :
    Value.memberLeaves (attributeContributions value attributes) =
      (attributeTexts attributes).map value := by
  induction attributes with
  | nil => rfl
  | cons first rest ih =>
      obtain ⟨name, text⟩ := first
      have hrest : Value.memberLeaves (attributeContributions value rest) =
          (attributeTexts rest).map value := ih
      have hfirst : (text.elim (.string "") value).leaves = [value (text.getD "")] := by
        cases text with
        | none => rw [Option.elim_none, Option.getD_none, hempty, Value.leaves]
        | some text => exact hscalar text
      show (text.elim (.string "") value).leaves ++
        Value.memberLeaves (attributeContributions value rest) = _
      rw [hfirst, hrest]
      rfl

include hempty hscalar in
/-- An element that is folded holds the leaves of what was contributed to it. -/
theorem leaves_element (attributes : Attributes) (content : List Item)
    (hcontent : (Value.memberLeaves (contributions value content)).Perm
      ((texts content).map value)) :
    (Object.gather (attributeContributions value attributes ++
        contributions value content)).leaves.Perm
      ((attributeTexts attributes ++ texts content).map value) := by
  calc List.Perm
        (Object.gather (attributeContributions value attributes ++
          contributions value content)).leaves
        (Object.empty.leaves ++ Value.memberLeaves (attributeContributions value attributes ++
          contributions value content)) := Object.leaves_appendAll _ _
    _ = (attributeTexts attributes).map value ++
        Value.memberLeaves (contributions value content) := by
      rw [memberLeaves_append, memberLeaves_attributeContributions hempty hscalar]
      rfl
    List.Perm _ ((attributeTexts attributes).map value ++ (texts content).map value) :=
      hcontent.append_left _
    _ = (attributeTexts attributes ++ texts content).map value := List.map_append.symm

end Contributions

mutual

theorem memberLeaves_item {value : String → Value} (hempty : value "" = .string "")
    (hscalar : ∀ text, (value text).leaves = [value text]) (item : Item) :
    (Value.memberLeaves (item.contributions value)).Perm (item.texts.map value) := by
  match item with
  | .text text =>
      rw [Item.contributions, Item.texts, memberLeaves_textContributions hscalar]
  | .cdata text =>
      rw [Item.contributions, Item.texts, memberLeaves_textContributions hscalar]
  | .comment _ => rw [Item.contributions, Item.texts]; exact .nil
  | .instruction _ => rw [Item.contributions, Item.texts]; exact .nil
  | .declaration => rw [Item.contributions, Item.texts]; exact .nil
  | .selfClosing tag attributes =>
      have hobject := leaves_element hempty hscalar attributes [] (by
        rw [contributions, texts]
        exact .nil)
      have hmark := emptyText_gather hempty attributes []
      rw [contributions, List.append_nil] at hobject hmark
      rw [texts, List.append_nil] at hobject
      rw [Item.contributions, Item.texts, Value.memberLeaves, Value.memberLeaves, List.append_nil,
        Object.leaves_foldSelfClosing, hmark, List.map_append]
      exact hobject.append_left _
  | .element tag attributes content =>
      have hobject := leaves_element hempty hscalar attributes content
        (memberLeaves_items hempty hscalar content)
      rw [Item.contributions, Item.texts, Value.memberLeaves, Value.memberLeaves, List.append_nil,
        Object.leaves_fold, emptyText_gather hempty, List.map_append]
      exact hobject.append_left _

/-- What items contribute has the values of their texts for leaves. -/
theorem memberLeaves_items {value : String → Value} (hempty : value "" = .string "")
    (hscalar : ∀ text, (value text).leaves = [value text]) (items : List Item) :
    (Value.memberLeaves (contributions value items)).Perm ((texts items).map value) := by
  match items with
  | [] =>
      rw [contributions, texts]
      exact .nil
  | item :: rest =>
      rw [contributions, texts, memberLeaves_append, List.map_append]
      exact (memberLeaves_item hempty hscalar item).append
        (memberLeaves_items hempty hscalar rest)

end

/-! ## Conversions -/

namespace Converter

variable {converter : Converter}

theorem scalar?_eq_string (hkeep : converter.settings.keepStrings.isTruthy = true)
    (text : String) : converter.scalar? text = .ok (.string text) :=
  if_pos hkeep

theorem valueOf_eq_string (hkeep : converter.settings.keepStrings.isTruthy = true) :
    converter.valueOf = Value.string := by
  funext text
  exact valueOf_of_scalar? (scalar?_eq_string hkeep text)

end Converter

/-- Where scalars stay texts, the scalars of a converted document are the texts that were read, each
as often as it was read: the values of attributes, the texts and sections that are not empty, and
an empty text for each element to which nothing was added. -/
theorem leaves_of_convert {converter : Converter} {text : String} {found : Conversion}
    (h : (converter.convert text).outcome = .ok found)
    (hkeep : converter.settings.keepStrings.isTruthy = true) :
    (∃ items, Spells (Trace.ofText text).entries items) ∧
      ∀ items, Spells (Trace.ofText text).entries items →
        found.data.leaves.Perm ((texts items).map Value.string) := by
  obtain ⟨-, hfault, -⟩ := Converter.applyAll_of_convert h
  refine ⟨exists_spells text hfault, fun items hitems => ?_⟩
  have hdata : found.data = .gather (contributions Value.string items) := by
    rw [Converter.eq_conversionOf h hitems, Converter.conversionOf,
      Converter.valueOf_eq_string hkeep]
  rw [hdata]
  exact (Object.leaves_appendAll .empty _).trans (memberLeaves_items rfl (fun _ => rfl) items)

example : texts [.element "a" [("x", some "1"), ("x", none)]
    [.text "3", .selfClosing "b" [], .comment "c", .element "d" [] [.cdata ""]]] =
      ["1", "", "3", "", ""] := by
  rfl

/-- Repeated attributes, a child named as the text is, and elements without anything. -/
theorem leaves_of_convert_coinciding :
    ∃ found items,
      (({ settings := { keepStrings := .bool true } } : Converter).convert
        "<a x='1' x content='2'>3<content/><b></b>3</a>").outcome = .ok found ∧
      Spells (Trace.ofText "<a x='1' x content='2'>3<content/><b></b>3</a>").entries items ∧
      found.data.leaves.Perm ((texts items).map Value.string) := by
  have hok : (({ settings := { keepStrings := .bool true } } : Converter).convert
      "<a x='1' x content='2'>3<content/><b></b>3</a>").outcome.toOption.isSome = true := by
    decide +kernel
  cases hfound : (({ settings := { keepStrings := .bool true } } : Converter).convert
      "<a x='1' x content='2'>3<content/><b></b>3</a>").outcome with
  | error failure => simp [hfound, Except.toOption] at hok
  | ok found =>
      obtain ⟨⟨items, hitems⟩, hleaves⟩ := leaves_of_convert hfound rfl
      exact ⟨found, items, rfl, hitems, hleaves items hitems⟩

end XmlToJson
