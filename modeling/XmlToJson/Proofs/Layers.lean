import XmlToJson.Settings
import Mathlib.Data.List.Induction

/-!
# Settings in layers

What settings say is told field by field (`Settings.field?`).  A change lays values over settings: a
field has the value of the first layer that says something about it (`layered`).  The change is made
if it is one of fields only and its outcome has values that the fields may have, and for no other
reason is it refused (`Settings.override_eq_ok_iff`).

## Strategy

* **Layers** are functions from names to values that may be missing.  `layered_cons` is all that is
  needed to compute with them.  Members, of which later ones replace earlier ones, make the layer
  `lastOf`, and putting members behind others lays them over these (`lastOf_append`).
* **Values that fields may have.**  `Settings.Admissible` says of a layer that it can be settings:
  the depth is a number that is not at most zero, the other limits are null or such numbers, and the
  level is the name of one.  Each field is checked by a function of its own, and each of these has
  one lemma that says when it gives what (`depthOf_eq_ok_iff`, `lengthOf_eq_ok_iff`,
  `indentOf_eq_ok_iff`, `levelOf_eq_ok_iff`).  Together they say that settings are made from values
  exactly if these are what the settings then say (`ofValues_eq_ok_iff`).
* **Changes.**  A change makes settings from the values that it gives and, below them, those that
  were there (`override_eq`).  So changing nothing changes nothing (`override_nil`), what a change
  leads to is valid, whatever it was made to (`isValid_of_override`), and changes that stand in one
  object with the settings before them do what they do alone (`ofMembers_append_eq_ok_iff`).

The default settings and those that have a name are valid (`isValid_default`, `isValid_of_preset?`).
-/

namespace XmlToJson

/-! ## Layers -/

/-- What the first of several layers that says something says about a field. -/
def layered (layers : List (String → Option Value)) (name : String) : Option Value :=
  layers.findSome? fun layer => layer name

@[simp] theorem layered_nil (name : String) : layered [] name = none := rfl

@[simp] theorem layered_cons (layer : String → Option Value)
    (layers : List (String → Option Value)) (name : String) :
    layered (layer :: layers) name = (layer name).or (layered layers name) := by
  rw [layered, List.findSome?_cons]
  cases layer name <;> rfl

/-- What members say about a field; of several members for one field the last counts. -/
def lastOf (members : List (String × Value)) (name : String) : Option Value :=
  (Object.ofMembers members).get? name

@[simp] theorem lastOf_nil (name : String) : lastOf [] name = none := rfl

theorem lastOf_concat (members : List (String × Value)) (key : String) (value : Value)
    (name : String) :
    lastOf (members ++ [(key, value)]) name =
      if name = key then some value else lastOf members name := by
  rw [lastOf, Object.ofMembers_concat, Object.get?_set]
  rfl

/-- Members that come later lie over the ones before. -/
theorem lastOf_append (first second : List (String × Value)) (name : String) :
    lastOf (first ++ second) name = (lastOf second name).or (lastOf first name) := by
  induction second using List.reverseRecOn with
  | nil => simp
  | append_singleton second last ih =>
      obtain ⟨key, value⟩ := last
      rw [← List.append_assoc, lastOf_concat, lastOf_concat, ih]
      split <;> rfl

theorem lastOf_eq_none {members : List (String × Value)} {name : String}
    (h : name ∉ members.map (·.1)) : lastOf members name = none := by
  induction members using List.reverseRecOn with
  | nil => rfl
  | append_singleton members last ih =>
      obtain ⟨key, value⟩ := last
      simp only [List.map_append, List.map_cons, List.map_nil, List.mem_append,
        List.mem_singleton, not_or] at h
      rw [lastOf_concat, if_neg h.2, ih h.1]

theorem bind_eq_ok_iff {α β ε : Type} {first : Except ε α} {next : α → Except ε β} {result : β} :
    first >>= next = .ok result ↔ ∃ value, first = .ok value ∧ next value = .ok result := by
  cases first <;> simp [bind, Except.bind]

theorem bind_eq_error_iff {α β ε : Type} {first : Except ε α} {next : α → Except ε β}
    {problem : ε} : first >>= next = .error problem ↔
      first = .error problem ∨ ∃ value, first = .ok value ∧ next value = .error problem := by
  cases first <;> simp [bind, Except.bind]

theorem mapError_eq_ok_iff {α ε δ : Type} {outcome : Except ε α} {change : ε → δ} {result : α} :
    outcome.mapError change = .ok result ↔ outcome = .ok result := by
  cases outcome <;> simp [Except.mapError]

namespace Settings

/-! ## Fields -/

/-- What settings say about a field. -/
def field? (settings : Settings) (name : String) : Option Value := settings.toMembers.lookup name

/-- A limit that may be left out, as a value. -/
def optional (limit : Option Number) : Value := (limit.map Number.toValue).getD .null

section Names

variable (settings : Settings)

@[simp] theorem field?_keepStrings : settings.field? "keep_strings" = some settings.keepStrings :=
  rfl

@[simp] theorem field?_depth :
    settings.field? "max_nesting_depth" = some settings.maxNestingDepth.toValue := rfl

@[simp] theorem field?_length :
    settings.field? "max_input_length" = some (optional settings.maxInputLength) := rfl

@[simp] theorem field?_indent :
    settings.field? "json_indent" = some (optional settings.jsonIndent) := rfl

@[simp] theorem field?_level :
    settings.field? "logging_level" = some (.string settings.loggingLevel.name) := rfl

theorem lastOf_toMembers (name : String) :
    lastOf settings.toMembers name = settings.field? name := by
  simp only [lastOf, Object.ofMembers, toMembers, List.foldl_cons, List.foldl_nil,
    Object.get?_set, Object.get?_empty, field?, Entries.lookup_cons, List.lookup_nil]
  grind

end Names

theorem toValue_inj {first second : Number} (h : first.toValue = second.toValue) :
    first = second := by
  cases first <;> cases second <;> cases h <;> rfl

theorem optional_inj {first second : Option Number} (h : optional first = optional second) :
    first = second := by
  cases first with
  | none => cases second with
    | none => rfl
    | some number => cases number <;> contradiction
  | some number => cases second with
    | none => cases number <;> contradiction
    | some other => exact congrArg some (toValue_inj h)

theorem field?_eq_none {settings : Settings} {name : String} (h : name ∉ fieldNames) :
    settings.field? name = none := by
  refine List.lookup_eq_none_iff.2 fun member hmember => ?_
  have hne : name ≠ member.1 := by
    rintro rfl
    exact h (List.mem_map_of_mem hmember)
  simpa using hne

/-! ## Values that fields may have -/

/-- Whether what is said about the fields can be settings: the depth is a number that is not
at most zero, the other limits are null or such numbers, an indentation may be zero as well,
and the level is the name of one. -/
structure Admissible (field : String → Option Value) : Prop where
  depth : ∃ number : Number, field "max_nesting_depth" = some number.toValue ∧
    number.isAtMost 0 = false
  length : ∃ limit : Option Number, field "max_input_length" = some (optional limit) ∧
    ∀ number ∈ limit, number.isAtMost 0 = false
  indent : ∃ limit : Option Number, field "json_indent" = some (optional limit) ∧
    ∀ number ∈ limit, number.isBelow 0 = false
  level : ∃ level : LogLevel, field "logging_level" = some (.string level.name)

/-- A value is null, a number, or nothing that a limit can be. -/
theorem limit_cases (value : Value) :
    value = .null ∨ (∃ number : Number, value = number.toValue) ∨
      value ≠ .null ∧ Number.ofValue? value = none := by
  cases value with
  | integer n => exact .inr (.inl ⟨.integer n, rfl⟩)
  | float x => exact .inr (.inl ⟨.float x, rfl⟩)
  | bool b => exact .inr (.inl ⟨.truth b, rfl⟩)
  | _ => simp [Number.ofValue?]

theorem ofValue?_toValue (number : Number) : Number.ofValue? number.toValue = some number := by
  cases number <;> rfl

theorem number_eq_error {operator : String} {value : Value} (h : Number.ofValue? value = none) :
    number operator value = .error (.incomparable operator value.kindName) := by
  rw [number, h]

theorem depthOf_toValue (depth : Number) :
    depthOf depth.toValue = if depth.isAtMost 0 then .error .depthNotPositive else .ok depth := by
  unfold depthOf number
  rw [ofValue?_toValue]
  rfl

theorem lengthOf_toValue (length : Number) :
    lengthOf length.toValue =
      if length.isAtMost 0 then .error .lengthNotPositive else .ok (some length) := by
  cases length <;> rfl

theorem indentOf_toValue (indent : Number) :
    indentOf indent.toValue =
      if indent.isBelow 0 then .error .indentNegative else .ok (some indent) := by
  cases indent <;> rfl

theorem depthOf_eq_ok_iff {value : Value} {depth : Number} :
    depthOf value = .ok depth ↔ value = depth.toValue ∧ depth.isAtMost 0 = false := by
  constructor
  · intro h
    cases hnumber : Number.ofValue? value with
    | none => simp [depthOf, number_eq_error hnumber, bind, Except.bind] at h
    | some number =>
        obtain ⟨other, rfl⟩ : ∃ other : Number, value = other.toValue := by
          rcases limit_cases value with rfl | hother | ⟨-, hnone⟩
          · contradiction
          · exact hother
          · rw [hnone] at hnumber
            contradiction
        rw [depthOf_toValue] at h
        grind
  · rintro ⟨rfl, hdepth⟩
    rw [depthOf_toValue, hdepth]
    rfl

/-- A limit that may be left out is taken unless it is refused as a number. -/
theorem limit_eq_ok_iff {limitOf : Value → Except SettingsFault (Option Number)}
    {refused : Number → Bool} {fault : SettingsFault} (hnull : limitOf .null = .ok none)
    (hnumber : ∀ number : Number, limitOf number.toValue =
      if refused number then .error fault else .ok (some number))
    (hother : ∀ value, value ≠ .null → Number.ofValue? value = none →
      ∃ problem, limitOf value = .error problem) {value : Value} {limit : Option Number} :
    limitOf value = .ok limit ↔
      value = optional limit ∧ ∀ number ∈ limit, refused number = false := by
  constructor
  · intro h
    rcases limit_cases value with rfl | ⟨number, rfl⟩ | ⟨hvalue, hnone⟩
    · obtain rfl := Except.ok.inj (hnull.symm.trans h)
      simp [optional]
    · rw [hnumber] at h
      cases hrefused : refused number with
      | true => simp [hrefused] at h
      | false =>
          rw [hrefused] at h
          obtain rfl := Except.ok.inj h
          simpa [optional]
    · obtain ⟨problem, hproblem⟩ := hother value hvalue hnone
      rw [hproblem] at h
      contradiction
  · rintro ⟨rfl, hlimit⟩
    cases limit with
    | none => exact hnull
    | some number =>
        rw [optional, Option.map_some, Option.getD_some, hnumber, hlimit number rfl]
        rfl

theorem lengthOf_eq_ok_iff {value : Value} {length : Option Number} :
    lengthOf value = .ok length ↔
      value = optional length ∧ ∀ number ∈ length, number.isAtMost 0 = false :=
  limit_eq_ok_iff rfl lengthOf_toValue fun value hvalue hnone =>
    ⟨_, by simp [lengthOf, number_eq_error hnone, bind, Except.bind]; rfl⟩

theorem indentOf_eq_ok_iff {value : Value} {indent : Option Number} :
    indentOf value = .ok indent ↔
      value = optional indent ∧ ∀ number ∈ indent, number.isBelow 0 = false :=
  limit_eq_ok_iff rfl indentOf_toValue fun value hvalue hnone =>
    ⟨_, by simp [indentOf, number_eq_error hnone, bind, Except.bind]; rfl⟩

theorem levelOf_eq_ok_iff {value : Value} {level : LogLevel} :
    levelOf value = .ok level ↔ value = .string level.name := by
  constructor
  · intro h
    unfold levelOf at h
    split at h
    · next name =>
        split at h
        · next other hother =>
            obtain rfl := Except.ok.inj h
            have hname : other.name = name := by simpa using List.find?_some hother
            rw [hname]
        · contradiction
    · contradiction
  · rintro rfl
    simp [levelOf]

theorem admissible_field?_iff {settings : Settings} :
    Admissible settings.field? ↔ settings.maxNestingDepth.isAtMost 0 = false ∧
      (∀ number ∈ settings.maxInputLength, number.isAtMost 0 = false) ∧
      ∀ number ∈ settings.jsonIndent, number.isBelow 0 = false := by
  constructor
  · rintro ⟨⟨depth, hdepth, hpositive⟩, ⟨length, hlength, hlengths⟩, ⟨indent, hindent, hindents⟩, -⟩
    obtain rfl := toValue_inj (Option.some.inj hdepth)
    obtain rfl := optional_inj (Option.some.inj hlength)
    obtain rfl := optional_inj (Option.some.inj hindent)
    exact ⟨hpositive, hlengths, hindents⟩
  · rintro ⟨hdepth, hlength, hindent⟩
    exact ⟨⟨_, rfl, hdepth⟩, ⟨_, rfl, hlength⟩, ⟨_, rfl, hindent⟩, ⟨_, rfl⟩⟩

/-- Settings are made from values exactly if these are what the settings then say, and may be
said. -/
theorem ofValues_eq_ok_iff {keepStrings depth length indent level : Value} {settings : Settings} :
    ofValues keepStrings depth length indent level = .ok settings ↔
      settings.toMembers = [("keep_strings", keepStrings), ("max_nesting_depth", depth),
        ("max_input_length", length), ("json_indent", indent), ("logging_level", level)] ∧
      Admissible settings.field? := by
  simp only [ofValues, bind_eq_ok_iff, depthOf_eq_ok_iff, lengthOf_eq_ok_iff, indentOf_eq_ok_iff,
    levelOf_eq_ok_iff, admissible_field?_iff]
  constructor
  · rintro ⟨depth, ⟨rfl, hdepth⟩, length, ⟨rfl, hlength⟩, indent, ⟨rfl, hindent⟩, level, rfl, h⟩
    obtain rfl := Except.ok.inj h
    exact ⟨rfl, hdepth, hlength, hindent⟩
  · obtain ⟨⟩ := settings
    rintro ⟨h, hdepth, hlength, hindent⟩
    simp only [toMembers, List.cons.injEq, Prod.mk.injEq, true_and, and_true] at h
    obtain ⟨rfl, rfl, rfl, rfl, rfl⟩ := h
    exact ⟨_, ⟨rfl, hdepth⟩, _, ⟨rfl, hlength⟩, _, ⟨rfl, hindent⟩, _, rfl, rfl⟩

section Faults

variable {keepStrings depth length indent level : Value} {fault : SettingsFault}

/-- The depth is looked at first. -/
theorem ofValues_of_depthOf (h : depthOf depth = .error fault) :
    ofValues keepStrings depth length indent level = .error fault := by
  rw [ofValues, h]
  rfl

theorem ofValues_of_indentOf {first : Number} {second : Option Number}
    (hdepth : depthOf depth = .ok first) (hlength : lengthOf length = .ok second)
    (h : indentOf indent = .error fault) :
    ofValues keepStrings depth length indent level = .error fault := by
  rw [ofValues, hdepth, hlength, h]
  rfl

end Faults

theorem toMembers_eq (settings : Settings) :
    settings.toMembers = fieldNames.map fun name => (name, (settings.field? name).getD .null) :=
  rfl

theorem exists_field? (settings : Settings) {name : String} (h : name ∈ fieldNames) :
    ∃ value, settings.field? name = some value := by
  simp only [fieldNames, List.mem_cons, List.not_mem_nil, or_false] at h
  rcases h with rfl | rfl | rfl | rfl | rfl <;> exact ⟨_, rfl⟩

/-- Settings hide what other settings below them say. -/
@[simp] theorem field?_or_field? (settings below : Settings) (name : String) :
    (settings.field? name).or (below.field? name) = settings.field? name := by
  by_cases hname : name ∈ fieldNames
  · obtain ⟨value, hvalue⟩ := exists_field? settings hname
    rw [hvalue, Option.some_or]
  · rw [field?_eq_none hname, field?_eq_none hname, Option.none_or]

/-- Settings have the given fields if they have them under the names of fields, and nothing is
given under other names. -/
theorem field?_eq_iff {settings : Settings} {field : String → Option Value}
    (hfields : ∀ name ∈ fieldNames, ∃ value, field name = some value)
    (hothers : ∀ name, name ∉ fieldNames → field name = none) :
    settings.field? = field ↔
      settings.toMembers = fieldNames.map fun name => (name, (field name).getD .null) := by
  constructor
  · rintro rfl
    exact toMembers_eq settings
  · intro h
    funext name
    by_cases hname : name ∈ fieldNames
    · rw [toMembers_eq, List.map_inj_left] at h
      obtain ⟨value, hvalue⟩ := hfields name hname
      obtain ⟨own, hown⟩ := exists_field? settings hname
      have hsame := congrArg Prod.snd (h name hname)
      simp only [hvalue, hown, Option.getD_some] at hsame
      rw [hvalue, hown, hsame]
    · rw [hothers name hname, field?_eq_none hname]

/-- Changes of fields only lead to the settings of the values that they and, below them, the
settings before have. -/
theorem override_eq {settings : Settings} {changes : List (String × Value)}
    (hknown : ∀ name ∈ changes.map (·.1), name ∈ fieldNames) :
    settings.override changes =
      let value := fun name => (layered [lastOf changes, settings.field?] name).getD .null
      ofValues (value "keep_strings") (value "max_nesting_depth") (value "max_input_length")
        (value "json_indent") (value "logging_level") := by
  have hlayers : ∀ name, (Object.ofMembers (settings.toMembers ++ changes)).get? name =
      layered [lastOf changes, settings.field?] name := by
    intro name
    rw [← lastOf, lastOf_append, lastOf_toMembers]
    simp
  unfold override
  split
  · next hfind =>
      have hunknown := List.find?_some hfind
      have hmember := List.mem_map_of_mem (f := (·.1)) (List.mem_of_find?_eq_some hfind)
      simp [hknown _ hmember] at hunknown
  · simp only [hlayers]

/-- A change is made exactly if it is one of fields only and may be made; the settings that it
leads to say what is changed, and what was said before of everything else. -/
theorem override_eq_ok_iff {settings result : Settings} {changes : List (String × Value)} :
    settings.override changes = .ok result ↔
      (∀ name ∈ changes.map (·.1), name ∈ fieldNames) ∧
        Admissible (layered [lastOf changes, settings.field?]) ∧
        result.field? = layered [lastOf changes, settings.field?] := by
  by_cases hknown : ∀ name ∈ changes.map (·.1), name ∈ fieldNames
  · have hiff := @field?_eq_iff result (layered [lastOf changes, settings.field?]) (by
      intro name hname
      obtain ⟨value, hvalue⟩ := exists_field? settings hname
      rw [layered_cons, layered_cons, hvalue]
      cases lastOf changes name <;> simp) (by
      intro name hname
      simp [lastOf_eq_none fun h => hname (hknown name h), field?_eq_none hname])
    rw [override_eq hknown, ofValues_eq_ok_iff]
    constructor
    · rintro ⟨hmembers, hadmissible⟩
      have hfield := hiff.2 hmembers
      exact ⟨hknown, hfield ▸ hadmissible, hfield⟩
    · rintro ⟨-, hadmissible, hfield⟩
      exact ⟨hiff.1 hfield, hfield ▸ hadmissible⟩
  · refine iff_of_false (fun h => ?_) fun h => hknown h.1
    unfold override at h
    split at h
    · contradiction
    · next hfind => exact hknown (by simpa using hfind)

/-- A change of fields only is made whenever it may be made. -/
theorem exists_override {settings : Settings} {changes : List (String × Value)}
    (hknown : ∀ name ∈ changes.map (·.1), name ∈ fieldNames)
    (hadmissible : Admissible (layered [lastOf changes, settings.field?])) :
    ∃ result, settings.override changes = .ok result := by
  obtain ⟨keepStrings, hkeep⟩ : ∃ value,
      layered [lastOf changes, settings.field?] "keep_strings" = some value := by
    cases h : lastOf changes "keep_strings" <;> simp [h]
  obtain ⟨⟨depth, hdepth, hpositive⟩, ⟨length, hlength, hlengths⟩, ⟨indent, hindent, hindents⟩,
    ⟨level, hlevel⟩⟩ := hadmissible
  refine ⟨⟨keepStrings, depth, length, indent, level⟩, ?_⟩
  rw [override_eq hknown]
  simp only [hkeep, hdepth, hlength, hindent, hlevel, Option.getD_some]
  rw [ofValues_eq_ok_iff, admissible_field?_iff]
  exact ⟨rfl, hpositive, hlengths, hindents⟩

/-! ## Settings that are valid -/

/-- Whether the fields of settings are what they may be. -/
def IsValid (settings : Settings) : Prop := Admissible settings.field?

/-- What a change leads to is valid, whatever it was made to. -/
theorem isValid_of_override {settings result : Settings} {changes : List (String × Value)}
    (h : settings.override changes = .ok result) : result.IsValid := by
  obtain ⟨-, hadmissible, hfield⟩ := override_eq_ok_iff.1 h
  rwa [IsValid, hfield]

/-- Changing nothing changes nothing. -/
theorem override_nil {settings : Settings} (h : settings.IsValid) :
    settings.override [] = .ok settings := by
  have hfield : layered [lastOf [], settings.field?] = settings.field? := by
    funext name
    simp
  rw [override_eq_ok_iff, hfield]
  exact ⟨by simp, h, rfl⟩

theorem isValid_default : ({} : Settings).IsValid := by
  rw [IsValid, admissible_field?_iff]
  decide

theorem isValid_of_mem_presets : ∀ preset ∈ presets, preset.2.IsValid := by
  simp only [presets, List.forall_mem_cons, IsValid, admissible_field?_iff]
  decide

theorem isValid_of_preset? {name : String} {settings : Settings}
    (h : preset? name = some settings) : settings.IsValid := by
  obtain ⟨before, after, hsplit, -⟩ := List.lookup_eq_some_iff.1 h
  exact isValid_of_mem_presets (name, settings) (by simp [hsplit])

theorem ofMembers_eq_ok_iff {members : List (String × Value)} {result : Settings} :
    ofMembers members = .ok result ↔ override {} members = .ok result := by
  unfold ofMembers
  split
  · rfl
  · next hsome =>
      refine iff_of_false (by simp) fun h => hsome ?_
      have hknown := (override_eq_ok_iff.1 h).1
      have hnone : (members.map (·.1)).filter (fun name => !fieldNames.contains name) = [] := by
        simpa using hknown
      rw [hnone, sortNames, List.mergeSort_nil]

/-- Changes that stand in one object with the settings before them do what they do alone. -/
theorem ofMembers_append_eq_ok_iff {settings result : Settings}
    {changes : List (String × Value)} :
    ofMembers (settings.toMembers ++ changes) = .ok result ↔
      settings.override changes = .ok result := by
  have hlayers : layered [lastOf (settings.toMembers ++ changes), ({} : Settings).field?] =
      layered [lastOf changes, settings.field?] := by
    funext name
    simp [lastOf_append, lastOf_toMembers, Option.or_assoc]
  have hknown : (∀ name ∈ (settings.toMembers ++ changes).map (·.1), name ∈ fieldNames) ↔
      ∀ name ∈ changes.map (·.1), name ∈ fieldNames := by
    rw [List.map_append, List.forall_mem_append]
    exact and_iff_right fun name hname => hname
  rw [ofMembers_eq_ok_iff, override_eq_ok_iff, override_eq_ok_iff, hlayers, hknown]

end Settings

end XmlToJson
