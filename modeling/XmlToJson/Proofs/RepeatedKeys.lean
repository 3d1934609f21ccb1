import XmlToJson.Proofs.Contributions

/-!
# Repeated keys

The rule for repeated keys says that a key with one contribution holds it, and that a key with
several holds an array of exactly these (`ruled`).  This file says what an object really holds, and
for which contributions that is the same.

## Strategy

* **What an object does.**  A value that is added under a key is the first one there, makes an array
  of two, or extends the array that is there already; `extend` is that one step, and `get?_append`
  says that it changes nothing under other keys.  Running it over all contributions under a key
  gives `slot`: it looks at the first contribution, and if that is a gathered array itself, the
  others extend it.  `get?_gather` and `keys_gather` say that an object holds the slots, with the
  keys in the order of their first contributions.
* **The rule** holds for a key unless its first contribution is such an array and is not the only
  one (`slot_eq_ruled_iff`).  Texts and attributes never contribute gathered arrays, but an element
  does if it holds several texts and nothing else (`fold_gather_eq_gathered_iff`).
* **Whole documents.**  `containers` lists what is contributed to each element among some items and
  inside them, so that one statement can be about the root and all elements
  (`repeated_keys_of_convert`).

Two elements of one name, the first of which holds two texts with a comment between them, are
therefore taken for the texts of one: `repeated_keys_rule_fails` reads such a document event by
event (`spells_coalescedFirst`) and compares what the root holds with the rule.
-/

namespace XmlToJson

/-- The values that are contributed under a key, in order. -/
def valuesUnder (key : String) (contributions : Contributions) : List Value :=
  (contributions.filter (·.1 = key)).map (·.2)

/-- The keys of contributions in the order of their first contributions. -/
def firstKeys : Contributions → List String
  | [] => []
  | (key, _) :: rest => key :: (firstKeys rest).filter (· ≠ key)

/-- What the rule for repeated keys puts under a key that has the given contributions. -/
def ruled : List Value → Option Value
  | [] => none
  | [value] => some value
  | values => some (.gathered values)

/-- The items of an array that can be extended; another value is the only item of the
array that is made for it. -/
def Value.gatheredItems : Value → List Value
  | .gathered items => items
  | value => [value]

/-- What an object holds under a key that has the given contributions. -/
def slot : List Value → Option Value
  | [] => none
  | [value] => some value
  | first :: rest => some (.gathered (first.gatheredItems ++ rest))

/-- Whether the first of several contributions is an array that can be extended. -/
def BeginsWithArray (values : List Value) : Prop :=
  ∃ items second rest, values = .gathered items :: second :: rest

section Containers

variable (value : String → Value)

mutual

def Item.containers : Item → List Contributions
  | .selfClosing _ attributes => [attributeContributions value attributes]
  | .element _ attributes content =>
      (attributeContributions value attributes ++ contributions value content) ::
        containers content
  | _ => []

/-- What is contributed to each element among items and inside them. -/
def containers : List Item → List Contributions
  | [] => []
  | item :: rest => item.containers ++ containers rest

end

end Containers

/-! ## What an object holds -/

/-- What a value makes of the value that is there already. -/
def extend (value : Value) : Option Value → Value
  | none => value
  | some first => .gathered (first.gatheredItems ++ [value])

namespace Object

theorem append_eq (object : Object) (key : String) (value : Value) :
    object.append key value = object.set key (extend value (object.get? key)) := by
  unfold append
  cases hfound : object.get? key with
  | none => rfl
  | some first => cases first <;> rfl

theorem get?_append (object : Object) (key other : String) (value : Value) :
    (object.append key value).get? other =
      if other = key then some (extend value (object.get? key)) else object.get? other := by
  rw [append_eq, get?_set]

theorem keys_append (object : Object) (key : String) (value : Value) :
    (object.append key value).keys =
      if key ∈ object.keys then object.keys else object.keys ++ [key] := by
  rw [append_eq]
  exact Entries.keys_set key _ object.members

theorem get?_appendAll (object : Object) (contributions : Contributions) (key : String) :
    (object.appendAll contributions).get? key =
      (valuesUnder key contributions).foldl (fun found value => some (extend value found))
        (object.get? key) := by
  induction contributions generalizing object with
  | nil => rfl
  | cons contribution rest ih =>
      obtain ⟨name, value⟩ := contribution
      rw [appendAll_cons, ih, get?_append]
      by_cases hname : name = key
      · subst hname
        simp [valuesUnder]
      · have hkey : key ≠ name := fun h => hname h.symm
        simp [valuesUnder, hname, hkey]

theorem keys_appendAll (object : Object) (contributions : Contributions) :
    (object.appendAll contributions).keys =
      object.keys ++ (firstKeys contributions).filter (· ∉ object.keys) := by
  induction contributions generalizing object with
  | nil => simp [firstKeys]
  | cons contribution rest ih =>
      obtain ⟨name, value⟩ := contribution
      rw [appendAll_cons, ih, keys_append, firstKeys]
      -- A key that is there already hides its later contributions in either list.
      by_cases hname : name ∈ object.keys
      · have hrest : ((firstKeys rest).filter (· ≠ name)).filter (· ∉ object.keys) =
            (firstKeys rest).filter (· ∉ object.keys) := by
          rw [List.filter_filter]
          refine List.filter_congr fun key _ => ?_
          by_cases hkey : key = name <;> simp [hkey, hname]
        rw [if_pos hname, List.filter_cons_of_neg (by simpa using hname), hrest]
      · have hrest : ((firstKeys rest).filter (· ≠ name)).filter (· ∉ object.keys) =
            (firstKeys rest).filter (· ∉ object.keys ++ [name]) := by
          rw [List.filter_filter]
          refine List.filter_congr fun key _ => ?_
          by_cases hkey : key = name <;> simp [hkey]
        rw [if_neg hname, List.filter_cons_of_pos (by simpa using hname), hrest]
        simp

end Object

/-- Further values extend an array. -/
theorem foldl_extend_some (first : Value) (values : List Value) (hvalues : values ≠ []) :
    values.foldl (fun found value => some (extend value found)) (some first) =
      some (.gathered (first.gatheredItems ++ values)) := by
  induction values generalizing first with
  | nil => exact absurd rfl hvalues
  | cons value rest ih =>
      rw [List.foldl_cons]
      -- The last value gives the array; before that the array made so far is extended again.
      by_cases hrest : rest = []
      · subst hrest
        rfl
      · rw [extend, ih _ hrest]
        simp [Value.gatheredItems]

/-- An object holds under a key what the contributions under that key make. -/
theorem get?_gather (contributions : Contributions) (key : String) :
    (Object.gather contributions).get? key = slot (valuesUnder key contributions) := by
  rw [Object.gather, Object.get?_appendAll, Object.get?_empty]
  cases valuesUnder key contributions with
  | nil => rfl
  | cons first rest =>
      cases rest with
      | nil => rfl
      | cons second rest => exact foldl_extend_some first (second :: rest) (by simp)

/-- The keys of an object stand in the order of their first contributions. -/
theorem keys_gather (contributions : Contributions) :
    (Object.gather contributions).keys = firstKeys contributions := by
  rw [Object.gather, Object.keys_appendAll]
  simp [Object.empty, Object.keys]

/-! ## The rule -/

theorem gatheredItems_eq_iff (first : Value) :
    first.gatheredItems = [first] ↔ ¬ ∃ items, first = .gathered items := by
  cases first with
  | gathered items =>
      refine ⟨fun h => ?_, fun h => absurd ⟨items, rfl⟩ h⟩
      -- An array is not one of its own items.
      have hsize := congrArg sizeOf h
      simp [Value.gatheredItems] at hsize
      omega
  | _ => simp [Value.gatheredItems]

/-- The rule holds for a key unless the first of several contributions is an array. -/
theorem slot_eq_ruled_iff (values : List Value) :
    slot values = ruled values ↔ ¬ BeginsWithArray values := by
  match values with
  | [] => simp [slot, ruled, BeginsWithArray]
  | [value] => simp [slot, ruled, BeginsWithArray]
  | first :: second :: rest =>
      have hslot : slot (first :: second :: rest) = ruled (first :: second :: rest) ↔
          first.gatheredItems = [first] := by
        simp only [slot, ruled, Option.some.injEq, Value.gathered.injEq]
        show first.gatheredItems ++ second :: rest = [first] ++ second :: rest ↔ _
        exact List.append_left_inj (second :: rest)
      rw [hslot, gatheredItems_eq_iff]
      simp [BeginsWithArray]

/-! ## Elements that become arrays -/

theorem mem_firstKeys {key : String} {value : Value} {contributions : Contributions}
    (h : (key, value) ∈ contributions) : key ∈ firstKeys contributions := by
  induction contributions with
  | nil => simp at h
  | cons contribution rest ih =>
      obtain ⟨name, first⟩ := contribution
      rw [firstKeys, List.mem_cons]
      by_cases hname : key = name
      · exact .inl hname
      · have hrest : (key, value) ∈ rest := by simpa [hname] using h
        exact .inr (List.mem_filter.2 ⟨ih hrest, by simpa using hname⟩)

theorem firstKeys_of_forall {key : String} {contributions : Contributions}
    (hall : ∀ contribution ∈ contributions, contribution.1 = key) :
    firstKeys contributions = if contributions = [] then [] else [key] := by
  induction contributions with
  | nil => rfl
  | cons contribution rest ih =>
      obtain ⟨name, value⟩ := contribution
      obtain rfl : name = key := hall _ List.mem_cons_self
      rw [firstKeys, ih fun other hother => hall other (List.mem_cons_of_mem _ hother)]
      by_cases hrest : rest = [] <;> simp [hrest]

theorem valuesUnder_of_forall {key : String} {contributions : Contributions}
    (hall : ∀ contribution ∈ contributions, contribution.1 = key) :
    valuesUnder key contributions = contributions.map (·.2) := by
  unfold valuesUnder
  rw [List.filter_eq_self.2 fun contribution h => by simpa using hall contribution h]

/-- An object is folded to an array if it has nothing but its text and that is one. -/
theorem fold_eq_gathered_iff (object : Object) (items : List Value) :
    object.fold = .gathered items ↔ object.members = [(Object.contentKey, .gathered items)] := by
  obtain ⟨members⟩ := object
  match members with
  | [] => simp [Object.fold]
  | [(key, value)] =>
      by_cases hkey : key = Object.contentKey <;> simp [Object.fold, Object.toValue, hkey]
  | _ :: _ :: _ => simp [Object.fold, Object.toValue]

theorem fold_gather_eq_gathered_iff (contributions : Contributions) (items : List Value) :
    (Object.gather contributions).fold = .gathered items ↔
      (∀ contribution ∈ contributions, contribution.1 = Object.contentKey) ∧
        slot (contributions.map (·.2)) = some (.gathered items) := by
  have hkeys := keys_gather contributions
  have hget := get?_gather contributions Object.contentKey
  rw [fold_eq_gathered_iff]
  constructor
  · intro hmembers
    have hcontent : firstKeys contributions = [Object.contentKey] := by
      rw [← hkeys, Object.keys, hmembers]
      rfl
    have hall : ∀ contribution ∈ contributions, contribution.1 = Object.contentKey := by
      intro contribution hmem
      simpa [hcontent] using mem_firstKeys hmem
    refine ⟨hall, ?_⟩
    rw [← valuesUnder_of_forall hall, ← hget, Object.get?, hmembers]
    rfl
  · rintro ⟨hall, hslot⟩
    have hne : contributions ≠ [] := by
      rintro rfl
      simp [slot] at hslot
    rw [firstKeys_of_forall hall, if_neg hne, Object.keys] at hkeys
    rw [valuesUnder_of_forall hall, hslot, Object.get?] at hget
    obtain ⟨⟨key, value⟩, hmembers, rfl⟩ := List.map_eq_singleton_iff.1 hkeys
    rw [hmembers] at hget ⊢
    simp_all

/-! ## Whole documents -/

/-- In an accepted document the root and every element hold under each key the `slot` of
what is contributed to them, with the keys in the order of their first contributions.
The rule for repeated keys holds where the first of several contributions is no array. -/
theorem repeated_keys_of_convert (converter : Converter) (text : String) (found : Conversion)
    (h : (converter.convert text).outcome = .ok found) :
    ∃ items, Spells (Trace.ofText text).entries items ∧
      found.data = .gather (contributions converter.valueOf items) ∧
      ∀ container ∈ contributions converter.valueOf items :: containers converter.valueOf items,
        (Object.gather container).keys = firstKeys container ∧
        ∀ key, (Object.gather container).get? key = slot (valuesUnder key container) ∧
          ((Object.gather container).get? key = ruled (valuesUnder key container) ↔
            ¬ BeginsWithArray (valuesUnder key container)) := by
  obtain ⟨-, hfault, -⟩ := Converter.follow_of_convert h
  obtain ⟨items, hitems⟩ := exists_spells text hfault
  refine ⟨items, hitems, congrArg Conversion.data (Converter.eq_conversionOf h hitems), ?_⟩
  intro container _
  refine ⟨keys_gather container, fun key => ⟨get?_gather container key, ?_⟩⟩
  rw [get?_gather]
  exact slot_eq_ruled_iff _

/-- Two elements with the same name, the first of which is a text. -/
theorem repeated_keys_of_convert_texts :
    ∃ found, (({} : Converter).convert "<a>1</a><a>2</a>").outcome = .ok found ∧
      ∃ items, Spells (Trace.ofText "<a>1</a><a>2</a>").entries items ∧
        found.data = .gather (contributions ({} : Converter).valueOf items) := by
  have haccepted :
      (({} : Converter).convert "<a>1</a><a>2</a>").outcome.toOption.isSome = true := by
    decide +kernel
  cases hconvert : (({} : Converter).convert "<a>1</a><a>2</a>").outcome with
  | error failure => simp [hconvert, Except.toOption] at haccepted
  | ok found =>
      obtain ⟨items, hitems, hdata, -⟩ := repeated_keys_of_convert {} _ found hconvert
      exact ⟨found, rfl, items, hitems, hdata⟩

/-- A document in which the first of two contributions is an array. -/
def coalescedFirst : String := "<a>x<!---->y</a><a/>"

theorem events_coalescedFirst : (Trace.ofText coalescedFirst).entries.map (·.event) =
    [.opened "a", .entered, .text "x", .comment "", .text "y", .closed "a", .opened "a",
      .selfClosed] := by
  decide +kernel

theorem spells_coalescedFirst : Spells (Trace.ofText coalescedFirst).entries
    [.element "a" [] [.text "x", .comment "", .text "y"], .selfClosing "a" []] := by
  have hevents := events_coalescedFirst
  simp only [List.map_eq_cons_iff, List.map_eq_nil_iff] at hevents
  obtain ⟨opening, _, hentries, hopening, ending, _, rfl, hending, first, _, rfl, hfirst,
    comment, _, rfl, hcomment, second, _, rfl, hsecond, closing, _, rfl, hclosing,
    opened, _, rfl, hopened, closed, _, rfl, hclosed, rfl⟩ := hevents
  have hcontent : Spells [first, comment, second] [.text "x", .comment "", .text "y"] :=
    .leaf (congrArg Event.item? hfirst) (.leaf (congrArg Event.item? hcomment)
      (.leaf (congrArg Event.item? hsecond) .nil))
  have hlast : Spells [opened, closed] [.selfClosing "a" []] :=
    @Spells.selfClosing opened closed "a" [] [] [] [] hopened rfl hclosed .nil
  rw [hentries]
  exact @Spells.element opening ending closing "a" [] [] [first, comment, second] _ _ _ hopening rfl
    hending hcontent hclosing hlast

/-- The rule for repeated keys fails for a document that is accepted: its two elements `a`
contribute an array and an empty text, and the root holds one array of three items. -/
theorem repeated_keys_rule_fails :
    ∃ found items, (({} : Converter).convert "<a>x<!---->y</a><a/>").outcome = .ok found ∧
      Spells (Trace.ofText "<a>x<!---->y</a><a/>").entries items ∧
      valuesUnder "a" (contributions ({} : Converter).valueOf items) =
        [.gathered [.string "x", .string "y"], .string ""] ∧
      found.data.get? "a" = some (.gathered [.string "x", .string "y", .string ""]) ∧
      found.data.get? "a" ≠
        ruled (valuesUnder "a" (contributions ({} : Converter).valueOf items)) := by
  have hvalues : valuesUnder "a" (contributions ({} : Converter).valueOf
      [.element "a" [] [.text "x", .comment "", .text "y"], .selfClosing "a" []]) =
      [.gathered [.string "x", .string "y"], .string ""] := by
    rfl
  have haccepted : (({} : Converter).convert coalescedFirst).outcome.toOption.isSome = true := by
    decide +kernel
  cases hconvert : (({} : Converter).convert coalescedFirst).outcome with
  | error failure => simp [hconvert, Except.toOption] at haccepted
  | ok found =>
      obtain rfl := Converter.eq_conversionOf hconvert spells_coalescedFirst
      refine ⟨_, _, hconvert, spells_coalescedFirst, hvalues, ?_, ?_⟩
      · exact (get?_gather _ "a").trans (by rw [hvalues]; rfl)
      · show (Object.gather _).get? "a" ≠ _
        rw [get?_gather, Ne, slot_eq_ruled_iff, hvalues]
        exact fun hnot => hnot ⟨_, _, _, rfl⟩

end XmlToJson
