import XmlToJson.Proofs.Coercion
import XmlToJson.Proofs.Limits
import XmlToJson.Proofs.RepeatedKeys

/-!
# The shape of what a document is converted to

Gathering and folding leave no trace of what they had nothing to work on.  Below the root there is
no empty object, an array has at least two items and does not begin with an array, and an object
with a text and nothing else is what the attributes of a tag that closes itself make, since any
other element is folded to that text.  `Value.Normal` is this normal form, and how deep the data
nests is bounded by how deep the elements nest (`shape_of_convert`).

## Strategy

* **The normal form** has a parameter for the objects with a text alone, since whether one may stand
  there shows in the document and not in the value.  Adding a value to an object keeps the form of
  its members: the value stands alone, makes an array of two, or extends an array.  The second case
  is the one in which the first item could be an array, but then it would have been extended.
  `normal_fold` and the lemma for tags that close themselves say what an element becomes.
* **Items.**  `Spells.normal` is the induction on the items of a document: all their contributions
  are in normal form.  `OfSelfClosing` says of members that they are what the attributes of some tag
  that closes itself make, and such a tag is among the items.
* **Nesting.**  An element is an object at most, and each of its members an array at most, so the
  data has two levels for each level of elements (`nesting_gather`, `nesting_items`).  The depth
  that is counted reaches the deepest of the items (`height_le_depth`), and the limit in the
  settings bounds the depth that is counted, if it lets no level above itself pass (`Number.Caps`,
  `depth_le_of_caps`).
-/

namespace XmlToJson

/-! ## The normal form -/

namespace Value

def isArray : Value → Bool
  | .list _ | .gathered _ => true
  | _ => false

/-- Whether a value is in normal form, where an object with the key of texts alone has to satisfy
`bare`. -/
inductive Normal (bare : List (String × Value) → Prop) : Value → Prop where
  | scalar {value : Value} : value.isContainer = false → Normal bare value
  | array {first second : Value} {rest : List Value} :
      first.isArray = false → (∀ item ∈ first :: second :: rest, Normal bare item) →
      Normal bare (.gathered (first :: second :: rest))
  | object {members : List (String × Value)} :
      members ≠ [] → (members.map (·.1) = [Object.contentKey] → bare members) →
      (∀ member ∈ members, Normal bare member.2) → Normal bare (.object members)

variable {bare : List (String × Value) → Prop} {value first : Value}

theorem Normal.mono {loose : List (String × Value) → Prop} (h : value.Normal bare)
    (hmono : ∀ members, bare members → loose members) : value.Normal loose := by
  induction h with
  | scalar hscalar => exact .scalar hscalar
  | array hfirst _ ih => exact .array hfirst ih
  | object hne hbare _ ih => exact .object hne (fun hkeys => hmono _ (hbare hkeys)) ih

/-- An array that is made or extended is in normal form: its first item is no array. -/
theorem Normal.extend (hfirst : first.Normal bare) (hvalue : value.Normal bare) :
    Normal bare (.gathered (first.gatheredItems ++ [value])) := by
  -- A value that is no array is the first of two items.
  have hpair : first.isArray = false → first.gatheredItems = [first] →
      Normal bare (.gathered (first.gatheredItems ++ [value])) := by
    intro harray hitems
    rw [hitems]
    refine .array harray ?_
    rw [List.forall_mem_cons, List.forall_mem_singleton]
    exact ⟨hfirst, hvalue⟩
  cases hfirst with
  | scalar hscalar => cases first <;> first | exact hpair rfl rfl | simp [isContainer] at hscalar
  | object => exact hpair rfl rfl
  | @array head second rest hhead hitems =>
      exact .array hhead (List.forall_mem_append.2 ⟨hitems, List.forall_mem_singleton.2 hvalue⟩)

/-! ## Nesting -/

example : (object [("a", .gathered [.null, .object [("b", .integer 1)]])]).nesting = 3 := rfl

theorem nesting_of_scalar (h : value.isContainer = false) : value.nesting = 0 := by
  cases value <;> first | rfl | simp [isContainer] at h

theorem nestingOfItems_le_iff {bound : Nat} {items : List Value} :
    nestingOfItems items ≤ bound ↔ ∀ item ∈ items, item.nesting ≤ bound := by
  induction items with
  | nil => simp [nestingOfItems]
  | cons item rest ih => rw [nestingOfItems, Nat.max_le, List.forall_mem_cons, ih]

theorem nestingOfMembers_le_iff {bound : Nat} {members : List (String × Value)} :
    nestingOfMembers members ≤ bound ↔ ∀ member ∈ members, member.2.nesting ≤ bound := by
  induction members with
  | nil => simp [nestingOfMembers]
  | cons member rest ih => rw [nestingOfMembers, Nat.max_le, List.forall_mem_cons, ih]

/-- A value that may become the beginning of an array is not deeper than the array. -/
theorem nesting_le_of_gatheredItems {bound : Nat}
    (h : ∀ item ∈ value.gatheredItems, item.nesting ≤ bound) : value.nesting ≤ bound + 1 := by
  cases value with
  | gathered items => exact Nat.succ_le_succ (nestingOfItems_le_iff.2 h)
  | _ => exact Nat.le_succ_of_le (h _ List.mem_cons_self)

theorem nesting_gatheredItems {bound : Nat} (h : value.nesting ≤ bound) :
    ∀ item ∈ value.gatheredItems, item.nesting ≤ bound := by
  intro item hitem
  cases value with
  | gathered items =>
      have hitems : nestingOfItems items ≤ bound := Nat.le_of_succ_le h
      exact nestingOfItems_le_iff.1 hitems item hitem
  | _ =>
      obtain rfl := List.mem_singleton.1 hitem
      exact h

end Value

/-! ## Gathering and folding -/

namespace Object

variable {P Q : Value → Prop}

theorem forall_members_set {object : Object} {key : String} {value : Value}
    (hobject : ∀ member ∈ object.members, P member.2) (hvalue : P value) :
    ∀ member ∈ (object.set key value).members, P member.2 := by
  obtain ⟨members⟩ := object
  show ∀ member ∈ Entries.set key value members, P member.2
  induction members with
  | nil => exact List.forall_mem_singleton.2 hvalue
  | cons member rest ih =>
      obtain ⟨other, old⟩ := member
      obtain ⟨hold, hrest⟩ := List.forall_mem_cons.1 hobject
      rw [Entries.set]
      split
      · exact List.forall_mem_cons.2 ⟨hvalue, hrest⟩
      · exact List.forall_mem_cons.2 ⟨hold, ih hrest⟩

theorem mem_of_get? {object : Object} {key : String} {value : Value}
    (h : object.get? key = some value) : ∃ member ∈ object.members, member.2 = value := by
  obtain ⟨before, behind, hmembers, -⟩ := List.lookup_eq_some_iff.1 h
  exact ⟨(key, value), by rw [hmembers]; simp, rfl⟩

/-- What holds of new values, and of arrays when they are made or extended, holds of all values that
an object comes to hold. -/
theorem forall_members_appendAll (hnew : ∀ value, Q value → P value)
    (hextend : ∀ first value, P first → Q value →
      P (.gathered (first.gatheredItems ++ [value])))
    {object : Object} {contributions : Contributions}
    (hobject : ∀ member ∈ object.members, P member.2)
    (hcontributions : ∀ contribution ∈ contributions, Q contribution.2) :
    ∀ member ∈ (object.appendAll contributions).members, P member.2 := by
  induction contributions generalizing object with
  | nil => exact hobject
  | cons contribution rest ih =>
      obtain ⟨key, value⟩ := contribution
      obtain ⟨hvalue, hrest⟩ := List.forall_mem_cons.1 hcontributions
      rw [appendAll_cons]
      refine ih ?_ hrest
      rw [append_eq]
      refine forall_members_set hobject ?_
      cases hfound : object.get? key with
      | none => exact hnew value hvalue
      | some first =>
          obtain ⟨member, hmember, rfl⟩ := mem_of_get? hfound
          exact hextend _ value (hobject member hmember) hvalue

theorem forall_members_gather (hnew : ∀ value, Q value → P value)
    (hextend : ∀ first value, P first → Q value →
      P (.gathered (first.gatheredItems ++ [value])))
    {contributions : Contributions}
    (hcontributions : ∀ contribution ∈ contributions, Q contribution.2) :
    ∀ member ∈ (gather contributions).members, P member.2 :=
  forall_members_appendAll hnew hextend (by simp [empty]) hcontributions

/-- What an element is folded to: an empty text, its only member if that is its text, or the object
itself, which then is neither empty nor a text alone. -/
theorem fold_cases (object : Object) :
    object.fold = .string "" ∨
      (∃ value, object.members = [(contentKey, value)] ∧ object.fold = value) ∨
      (object.members ≠ [] ∧ object.members.map (·.1) ≠ [contentKey] ∧
        object.fold = object.toValue) := by
  obtain ⟨members⟩ := object
  match members with
  | [] => exact .inl rfl
  | [(key, value)] =>
      by_cases hkey : key = contentKey
      · subst hkey
        exact .inr (.inl ⟨value, rfl, by simp [fold]⟩)
      · exact .inr (.inr ⟨List.cons_ne_nil _ _, by simpa using hkey, by simp [fold, hkey]⟩)
  | _ :: _ :: _ => exact .inr (.inr ⟨List.cons_ne_nil _ _, by simp, rfl⟩)

variable {bare : List (String × Value) → Prop} {contributions : Contributions}

theorem normal_members (h : ∀ contribution ∈ contributions, contribution.2.Normal bare) :
    ∀ member ∈ (gather contributions).members, member.2.Normal bare :=
  forall_members_gather (fun _ hvalue => hvalue) (fun _ _ => Value.Normal.extend) h

/-- An element is folded to a value in normal form, if what it gathers is. -/
theorem normal_fold (h : ∀ contribution ∈ contributions, contribution.2.Normal bare) :
    (gather contributions).fold.Normal bare := by
  have hmembers := normal_members h
  rcases (gather contributions).fold_cases with
    hempty | ⟨value, hsingle, hfold⟩ | ⟨hne, hkeys, hfold⟩
  · rw [hempty]
    exact .scalar rfl
  · rw [hfold]
    exact hmembers (contentKey, value) (by rw [hsingle]; exact List.mem_cons_self)
  · rw [hfold]
    exact .object hne (fun hcontent => absurd hcontent hkeys) hmembers

/-- Where the contributions nest up to a bound, an object nests two levels more: it may gather them
in arrays. -/
theorem nesting_gather {bound : Nat}
    (h : ∀ contribution ∈ contributions, contribution.2.nesting ≤ bound) :
    ∀ member ∈ (gather contributions).members, member.2.nesting ≤ bound + 1 := by
  have hitems : ∀ member ∈ (gather contributions).members,
      ∀ item ∈ member.2.gatheredItems, item.nesting ≤ bound := by
    refine @forall_members_gather
      (fun value => ∀ item ∈ value.gatheredItems, item.nesting ≤ bound)
      (fun value => value.nesting ≤ bound) (fun _ => Value.nesting_gatheredItems) ?_ _ h
    intro first value hfirst hvalue
    exact List.forall_mem_append.2 ⟨hfirst, List.forall_mem_singleton.2 hvalue⟩
  exact fun member hmember => Value.nesting_le_of_gatheredItems (hitems member hmember)

theorem nesting_toValue {bound : Nat} {object : Object}
    (h : ∀ member ∈ object.members, member.2.nesting ≤ bound) :
    object.toValue.nesting ≤ bound + 1 :=
  Nat.succ_le_succ (Value.nestingOfMembers_le_iff.2 h)

theorem nesting_fold {bound : Nat}
    (h : ∀ contribution ∈ contributions, contribution.2.nesting ≤ bound) :
    (gather contributions).fold.nesting ≤ bound + 2 := by
  have hmembers := nesting_gather h
  rcases (gather contributions).fold_cases with
    hempty | ⟨value, hsingle, hfold⟩ | ⟨-, -, hfold⟩
  · rw [hempty]
    exact Nat.zero_le _
  · rw [hfold]
    have hvalue := hmembers (contentKey, value) (by rw [hsingle]; exact List.mem_cons_self)
    exact Nat.le_succ_of_le hvalue
  · rw [hfold]
    exact nesting_toValue hmembers

end Object

/-! ## Items -/

/-- Whether a tag with the given attributes closes itself. -/
def ClosesItself (entries : List Entry) (attributes : Attributes) : Prop :=
  ∃ opening tag inTag ending, opening :: (inTag ++ [ending]) <:+: entries ∧
    opening.event = .opened tag ∧ inTag.map (·.event) = attributeEvents attributes ∧
    ending.event = .selfClosed

/-- Whether members are what the attributes of a tag that closes itself make. -/
def OfSelfClosing (value : String → Value) (entries : List Entry)
    (members : List (String × Value)) : Prop :=
  ∃ attributes, ClosesItself entries attributes ∧
    members = (Object.gather (attributeContributions value attributes)).members

theorem OfSelfClosing.mono {value : String → Value} {inner outer : List Entry}
    (hsub : inner <:+: outer) (members : List (String × Value))
    (h : OfSelfClosing value inner members) : OfSelfClosing value outer members := by
  obtain ⟨attributes, ⟨opening, tag, inTag, ending, htag, hevents⟩, hmembers⟩ := h
  exact ⟨attributes, ⟨opening, tag, inTag, ending, htag.trans hsub, hevents⟩, hmembers⟩

section Items

variable {value : String → Value} (hscalar : ∀ text, (value text).isContainer = false)

include hscalar

theorem isContainer_attributeContributions (attributes : Attributes) :
    ∀ contribution ∈ attributeContributions value attributes,
      contribution.2.isContainer = false := by
  intro contribution hmem
  obtain ⟨⟨name, text⟩, -, rfl⟩ := List.mem_map.1 hmem
  cases text with
  | none => rfl
  | some text => exact hscalar text

theorem isContainer_textContributions (text : String) :
    ∀ contribution ∈ textContributions value text, contribution.2.isContainer = false := by
  unfold textContributions
  split
  · simp
  · exact List.forall_mem_singleton.2 (hscalar text)

/-- An item of one event contributes a scalar if anything. -/
theorem isContainer_of_item? {event : Event} {item : Item} (h : event.item? = some item) :
    ∀ contribution ∈ item.contributions value, contribution.2.isContainer = false := by
  cases event <;> simp only [Event.item?, Option.some.injEq, reduceCtorEq] at h <;> subst h
  case text text => exact isContainer_textContributions hscalar text
  case cdata text => exact isContainer_textContributions hscalar text
  all_goals simp [Item.contributions]

/-- All contributions of items are in normal form. -/
theorem Spells.normal {entries : List Entry} {items : List Item} (h : Spells entries items) :
    ∀ contribution ∈ contributions value items,
      contribution.2.Normal (OfSelfClosing value entries) := by
  induction h with
  | nil => simp [contributions]
  | @leaf entry item rest items hitem _ ih =>
      intro contribution hmem
      rcases List.mem_append.1 hmem with hown | hlater
      · exact .scalar (isContainer_of_item? hscalar hitem contribution hown)
      · exact (ih contribution hlater).mono (OfSelfClosing.mono (List.suffix_cons _ _).isInfix)
  | @selfClosing opening ending tag attributes inTag rest items hopening hattributes hending _ ih =>
      intro contribution hmem
      rcases List.mem_append.1 hmem with hown | hlater
      · obtain rfl := List.mem_singleton.1 hown
        have hown : ∀ own ∈ attributeContributions value attributes,
            own.2.Normal (OfSelfClosing value (opening :: (inTag ++ ending :: rest))) :=
          fun own hmem => .scalar (isContainer_attributeContributions hscalar attributes own hmem)
        have hmembers := Object.normal_members hown
        show Value.Normal _ (Object.foldSelfClosing _)
        unfold Object.foldSelfClosing
        split
        · exact .scalar rfl
        · next hne =>
            refine .object (fun hnil => hne ?_) (fun _ => ?_) hmembers
            · rw [Object.isEmpty, hnil, List.isEmpty_nil]
            · exact ⟨attributes, ⟨opening, tag, inTag, ending, ⟨[], rest, by simp⟩, hopening,
                hattributes, hending⟩, rfl⟩
      · exact (ih contribution hlater).mono (OfSelfClosing.mono ⟨opening :: (inTag ++ [ending]), [],
          by simp⟩)
  | @element opening ending closing tag attributes inTag inner rest content items _ _ _ _ _ _
      ihinner ih =>
      intro contribution hmem
      rcases List.mem_append.1 hmem with hown | hlater
      · obtain rfl := List.mem_singleton.1 hown
        refine Object.normal_fold fun own hmem => ?_
        rcases List.mem_append.1 hmem with hattribute | hcontent
        · exact .scalar (isContainer_attributeContributions hscalar attributes own hattribute)
        · exact (ihinner own hcontent).mono (OfSelfClosing.mono
            ⟨opening :: (inTag ++ [ending]), closing :: rest, by simp⟩)
      · exact (ih contribution hlater).mono (OfSelfClosing.mono
          ⟨opening :: (inTag ++ ending :: (inner ++ [closing])), [], by simp⟩)

omit hscalar

end Items

mutual

theorem nesting_item {value : String → Value}
    (hscalar : ∀ text, (value text).isContainer = false) (item : Item) :
    ∀ contribution ∈ item.contributions value, contribution.2.nesting ≤ 2 * item.height := by
  have hzero : ∀ {contributions : Contributions} {bound : Nat},
      (∀ contribution ∈ contributions, contribution.2.isContainer = false) →
      ∀ contribution ∈ contributions, contribution.2.nesting ≤ bound := by
    intro contributions bound h contribution hmem
    rw [Value.nesting_of_scalar (h contribution hmem)]
    exact Nat.zero_le bound
  match item with
  | .text text => exact hzero (isContainer_textContributions hscalar text)
  | .cdata text => exact hzero (isContainer_textContributions hscalar text)
  | .comment _ => simp [Item.contributions]
  | .instruction _ => simp [Item.contributions]
  | .declaration => simp [Item.contributions]
  | .selfClosing tag attributes =>
      refine List.forall_mem_singleton.2 ?_
      have hmembers := Object.nesting_gather
        (@hzero _ 0 (isContainer_attributeContributions hscalar attributes))
      show Value.nesting (Object.foldSelfClosing _) ≤ 2
      unfold Object.foldSelfClosing
      split
      · exact Nat.zero_le 2
      · exact Object.nesting_toValue hmembers
  | .element tag attributes content =>
      refine List.forall_mem_singleton.2 ?_
      refine Object.nesting_fold fun contribution hmem => ?_
      rcases List.mem_append.1 hmem with hattribute | hcontent
      · exact hzero (isContainer_attributeContributions hscalar attributes) contribution hattribute
      · exact nesting_items hscalar content contribution hcontent

/-- What elements contribute nests at most twice as deep as they do. -/
theorem nesting_items {value : String → Value}
    (hscalar : ∀ text, (value text).isContainer = false) (items : List Item) :
    ∀ contribution ∈ contributions value items, contribution.2.nesting ≤ 2 * height items := by
  match items with
  | [] => simp [contributions]
  | item :: rest =>
      intro contribution hmem
      rw [height]
      rcases List.mem_append.1 hmem with hown | hlater
      · have hle := nesting_item hscalar item contribution hown
        omega
      · have hle := nesting_items hscalar rest contribution hlater
        omega

end

mutual

theorem height_le_depth_item (level : Nat) (item : Item) :
    item.height = 0 ∨ level + item.height ≤ (item.metrics level).depth := by
  match item with
  | .text _ | .cdata _ | .comment _ | .instruction _ | .declaration => exact .inl rfl
  | .selfClosing tag attributes => exact .inr (Nat.le_refl _)
  | .element tag attributes content =>
      have hcontent := height_le_depth (level + 1) content
      refine .inr ?_
      show level + (height content + 1) ≤
        max (level + 1) (metricsOf (level + 1) content).depth
      omega

/-- The depth that is counted reaches the deepest of the items. -/
theorem height_le_depth (level : Nat) (items : List Item) :
    height items = 0 ∨ level + height items ≤ (metricsOf level items).depth := by
  match items with
  | [] => exact .inl rfl
  | item :: rest =>
      have hitem := height_le_depth_item level item
      have hrest := height_le_depth level rest
      show max item.height (height rest) = 0 ∨
        level + max item.height (height rest) ≤
          max (item.metrics level).depth (metricsOf level rest).depth
      omega

end

/-! ## Conversions -/

/-- Whether a setting lets no element stand above the level `limit`. -/
def Number.Caps (number : Number) (limit : Nat) : Prop :=
  ∀ level : Nat, limit < level → number.isBelow level = true

theorem Number.caps_integer (limit : Nat) : (Number.integer limit).Caps limit := by
  intro level hlevel
  rw [isBelow_level, decide_eq_true_eq]
  exact hlevel

namespace Converter

variable {converter : Converter} {text : String}

/-- A text is read as a scalar, if it is read at all. -/
theorem isContainer_valueOf (converter : Converter) (text : String) :
    (converter.valueOf text).isContainer = false := by
  unfold valueOf
  cases hscalar : converter.scalar? text with
  | error failure => rfl
  | ok value =>
      unfold scalar? at hscalar
      split at hscalar
      · obtain rfl := Except.ok.inj hscalar
        rfl
      · split at hscalar
        · next found hfound =>
            obtain rfl := Except.ok.inj hscalar
            exact Scalar.isContainer_ofText hfound
        · simp at hscalar

/-- No more depth is counted than the setting lets pass. -/
theorem depth_le_of_caps {limit : Nat} (hcaps : converter.settings.maxNestingDepth.Caps limit)
    {found : Conversion} (h : (converter.convert text).outcome = .ok found) :
    found.metrics.depth ≤ limit := by
  refine depth_of_convert (motive := (· ≤ limit)) (Nat.zero_le limit) (fun level hbelow => ?_) h
  refine Nat.not_lt.1 fun habove => ?_
  rw [hcaps level habove] at hbelow
  contradiction

/-- What an accepted document is converted to holds values in normal form below its root, without
a bare text if no tag closes itself, and nests at most two levels for each level of elements and
two more. -/
theorem shape_of_convert (converter : Converter) (text : String) (found : Conversion)
    (h : (converter.convert text).outcome = .ok found) :
    (∀ member ∈ found.data.members,
      member.2.Normal (OfSelfClosing converter.valueOf (Trace.ofText text).entries)) ∧
    ((∀ entry ∈ (Trace.ofText text).entries, entry.event ≠ .selfClosed) →
      ∀ member ∈ found.data.members, member.2.Normal fun _ => False) ∧
    found.data.toValue.nesting ≤ 2 * found.metrics.depth + 2 ∧
    ∀ limit : Nat, converter.settings.maxNestingDepth.Caps limit →
      found.data.toValue.nesting ≤ 2 * limit + 2 := by
  obtain ⟨-, hfault, -⟩ := follow_of_convert h
  obtain ⟨items, hitems⟩ := exists_spells text hfault
  have hconversion := eq_conversionOf h hitems
  have hdata : found.data = .gather (contributions converter.valueOf items) :=
    congrArg Conversion.data hconversion
  have hnormal : ∀ member ∈ found.data.members,
      member.2.Normal (OfSelfClosing converter.valueOf (Trace.ofText text).entries) := by
    rw [hdata]
    exact Object.normal_members (hitems.normal converter.isContainer_valueOf)
  have hdepth : height items ≤ found.metrics.depth := by
    have hcounted : found.metrics.depth = max 0 (metricsOf 0 items).depth :=
      congrArg (fun conversion => conversion.metrics.depth) hconversion
    have hheight := height_le_depth 0 items
    omega
  have hnesting : found.data.toValue.nesting ≤ 2 * height items + 2 := by
    rw [hdata]
    exact Object.nesting_toValue
      (Object.nesting_gather (nesting_items converter.isContainer_valueOf items))
  refine ⟨hnormal, ?_, by omega, ?_⟩
  · intro hnone member hmember
    refine (hnormal member hmember).mono ?_
    rintro members ⟨attributes, ⟨opening, tag, inTag, ending, hsub, -, -, hending⟩, -⟩
    exact hnone ending (hsub.subset (by simp)) hending
  · intro limit hcaps
    have hlimit := depth_le_of_caps hcaps h
    omega

/-- An element with a bare text in an attribute, and one with a text. -/
theorem shape_of_convert_bare :
    ∃ found, (({} : Converter).convert "<a><b content='1'/><b>x</b></a>").outcome = .ok found ∧
      found.data.toValue.nesting ≤ 2 * found.metrics.depth + 2 ∧
      found.data.toValue.nesting ≤ 2 * 512 + 2 ∧
      ∀ member ∈ found.data.members, member.2.Normal (OfSelfClosing ({} : Converter).valueOf
        (Trace.ofText "<a><b content='1'/><b>x</b></a>").entries) := by
  have hok : (({} : Converter).convert
      "<a><b content='1'/><b>x</b></a>").outcome.toOption.isSome = true := by
    decide +kernel
  obtain ⟨found, hfound⟩ := exists_of_isSome hok
  obtain ⟨hnormal, -, hdepth, hlimit⟩ := shape_of_convert {} _ found hfound
  exact ⟨found, hfound, hdepth, hlimit 512 (Number.caps_integer 512), hnormal⟩

end Converter

end XmlToJson
