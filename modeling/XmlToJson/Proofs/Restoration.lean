import XmlToJson.Proofs.JsonRoundTrips
import XmlToJson.Proofs.Layers
import XmlToJson.Proofs.RepeatedKeys

/-!
# Settings that are restored

Settings are made again from a copy of their members and from their JSON text
(`Settings.restored_of_isExact`).

* The copy leads to the very settings (`ofMembers_toMembers`), since an object is made again from
  its members, of which later ones replace earlier ones in place (`Object.ofMembers_members`).  For
  the same reason a change of the settings is a change of the copy (`ofMembers_object`).
* The text leads to settings that count as the same: only the sorts of the arrays in them are
  forgotten (`Settings.plain`).  The work is done for all values in `JsonRoundTrips`; here it is
  seen that the members of settings are such a value, and that settings with one sort of array are
  valid if the settings are (`isValid_plain`).

A machine sets the bounds.  One setting holds any value, so copying goes into as many levels as that
value has (`toDictionary_eq_ok`), and writing and reading into one more.  Lines are indented by a
number of spaces that there is.  The bounds cannot be left out: with an indentation of more than 64
bits there is no text, and of a value with too many levels there is not even a copy
(`not_restored`).
-/

namespace XmlToJson

/-! ## Members of an object -/

namespace Object

theorem keys_ofMembers_concat (members : List (String × Value)) (last : String × Value) :
    (ofMembers (members ++ [last])).keys =
      if last.1 ∈ (ofMembers members).keys then (ofMembers members).keys
      else (ofMembers members).keys ++ [last.1] := by
  rw [ofMembers_concat]
  exact Entries.keys_set last.1 last.2 (ofMembers members).members

theorem nodup_keys_ofMembers (members : List (String × Value)) :
    (ofMembers members).keys.Nodup := by
  induction members using List.reverseRecOn with
  | nil => exact List.nodup_nil
  | append_singleton members last ih =>
      rw [keys_ofMembers_concat]
      split
      · exact ih
      · next hfresh =>
          refine ih.append (List.nodup_singleton _) ?_
          rwa [List.disjoint_singleton]

theorem mem_keys_ofMembers {members : List (String × Value)} {key : String} :
    key ∈ (ofMembers members).keys ↔ key ∈ members.map (·.1) := by
  induction members using List.reverseRecOn with
  | nil => rfl
  | append_singleton members last ih =>
      rw [keys_ofMembers_concat, List.map_append, List.mem_append, ← ih]
      split
      · next hthere =>
          refine (or_iff_left_of_imp fun hlast => ?_).symm
          obtain rfl : key = last.1 := by simpa using hlast
          exact hthere
      · rw [List.mem_append]
        rfl

/-- An object that is made of the members of an object is that object. -/
theorem ofMembers_members (members : List (String × Value)) :
    ofMembers (ofMembers members).members = ofMembers members :=
  ofMembers_of_nodup (nodup_keys_ofMembers members)

end Object

namespace Settings

/-- Members of which a later one replaces an earlier one lead to the same settings as the object of
all of them. -/
theorem ofMembers_object {members : List (String × Value)} {result : Settings} :
    ofMembers (Object.ofMembers members).members = .ok result ↔ ofMembers members = .ok result := by
  have hlast : lastOf (Object.ofMembers members).members = lastOf members := by
    funext name
    rw [lastOf, Object.ofMembers_members, lastOf]
  have hknown : (∀ name ∈ (Object.ofMembers members).members.map (·.1), name ∈ fieldNames) ↔
      ∀ name ∈ members.map (·.1), name ∈ fieldNames :=
    forall_congr' fun name => imp_congr_left Object.mem_keys_ofMembers
  rw [ofMembers_eq_ok_iff, ofMembers_eq_ok_iff, override_eq_ok_iff, override_eq_ok_iff, hlast,
    hknown]

theorem ofMembers_toMembers {settings : Settings} (h : settings.IsValid) :
    ofMembers settings.toMembers = .ok settings := by
  have hchanges := @ofMembers_append_eq_ok_iff settings settings []
  rw [List.append_nil] at hchanges
  exact hchanges.2 (override_nil h)

/-! ## Settings with one sort of array -/

/-- The settings with one sort of array. -/
def plain (settings : Settings) : Settings :=
  { settings with keepStrings := settings.keepStrings.plain id }

theorem plain_toValue (number : Number) : number.toValue.plain id = number.toValue := by
  cases number <;> rfl

theorem plain_optional (limit : Option Number) :
    ((limit.map Number.toValue).getD .null).plain id = (limit.map Number.toValue).getD .null := by
  rcases limit with - | number
  · rfl
  · exact plain_toValue number

theorem toValue_plain (settings : Settings) :
    settings.plain.toValue = settings.toValue.plain id := by
  simp only [toValue, toMembers, plain, Value.plain, Value.plainMembers, plain_toValue,
    plain_optional]

theorem isValid_plain {settings : Settings} (h : settings.IsValid) : settings.plain.IsValid := by
  rw [IsValid, admissible_field?_iff] at h ⊢
  exact h

/-! ## Settings from a text -/

section Text

variable {settings : Settings} (hvalid : settings.IsValid)
  (hexact : settings.toValue.MadeOf Value.IsExact fun _ => True)

include hvalid hexact

/-- The text of settings leads to the settings with one sort of array, if its levels can be
opened. -/
theorem ofJson_toJson {host : Host} {layout : JsonLayout} (hlayout : layout.IsSpaced)
    (hlevels : settings.toValue.nesting ≤ host.readingLevels) :
    ofJson host (settings.toJson layout) = .ok settings.plain := by
  have hspaced : JsonLayout.IsSpaced { layout with ascii := true } := hlayout
  have hread : Value.ofJson host (settings.toJson layout) = .ok settings.plain.toValue := by
    rw [toValue_plain]
    exact Value.ofJson_toJson hexact hspaced hlevels
  rw [ofJson, hread]
  exact ofMembers_toMembers (isValid_plain hvalid)

end Text

/-- A value that members give is one of theirs. -/
theorem forall_lastOf {P : Value → Prop} {members : List (String × Value)} {name : String}
    (h : ∀ member ∈ members, P member.2) : ∀ value ∈ lastOf members name, P value := by
  intro value hvalue
  obtain ⟨member, hmember, rfl⟩ := Object.mem_of_get? hvalue
  exact Object.forall_members_ofMembers h member hmember

theorem keepStrings_of_ofMembers {members : List (String × Value)} {result : Settings}
    (h : ofMembers members = .ok result) :
    result.keepStrings = (lastOf members "keep_strings").getD (.bool false) := by
  obtain ⟨-, -, hfield⟩ := override_eq_ok_iff.1 (ofMembers_eq_ok_iff.1 h)
  have hkeep := congrFun hfield "keep_strings"
  rw [field?_keepStrings, layered_cons] at hkeep
  cases hlast : lastOf members "keep_strings" <;> simpa [hlast] using hkeep

/-- No text gives settings with a value that has as many levels as can be opened: the members of the
settings are one level more. -/
theorem nesting_lt_of_ofJson {host : Host} {text : String} {result : Settings}
    (h : ofJson host text = .ok result) : result.keepStrings.nesting < host.readingLevels := by
  unfold ofJson at h
  split at h
  · contradiction
  · next members hread =>
      have hnesting : Value.nestingOfMembers members < host.readingLevels :=
        Value.nesting_le_of_ofJson hread
      have hlast : ∀ value ∈ lastOf members "keep_strings",
          value.nesting ≤ Value.nestingOfMembers members :=
        forall_lastOf (Value.nestingOfMembers_le_iff.1 (Nat.le_refl _))
      rw [keepStrings_of_ofMembers h]
      cases hvalue : lastOf members "keep_strings" with
      | none => exact Nat.lt_of_le_of_lt (Nat.zero_le _) hnesting
      | some value => exact Nat.lt_of_le_of_lt (hlast value hvalue) hnesting
  · contradiction

/-- The one value that may have levels lies one level below the members. -/
theorem nesting_toValue (settings : Settings) :
    settings.toValue.nesting = settings.keepStrings.nesting + 1 := by
  have hnumber : ∀ number : Number, number.toValue.nesting = 0 := by
    rintro (- | - | -) <;> rfl
  have hoptional : ∀ limit : Option Number,
      ((limit.map Number.toValue).getD .null).nesting = 0 := by
    rintro (- | number)
    · rfl
    · exact hnumber number
  have hlevel : ∀ level : LogLevel, (Value.string level.name).nesting = 0 := fun _ => rfl
  simp only [toValue, toMembers, Value.nesting, Value.nestingOfMembers, hnumber, hoptional,
    Nat.max_zero]

/-! ## Copies of settings -/

/-- The members of settings are copied as they are, if the machine goes into all levels of the one
value that may have some. -/
theorem toDictionary_eq_ok {host : Host} {settings : Settings}
    (h : settings.keepStrings.nesting ≤ host.copyingLevels) :
    settings.toDictionary host = .ok settings.toMembers :=
  if_neg (Nat.not_lt.2 h)

theorem toDictionary_eq_error {host : Host} {settings : Settings}
    (h : host.copyingLevels < settings.keepStrings.nesting) :
    settings.toDictionary host = .error .tooDeep :=
  if_pos h

/-- A copy of the settings is written like the settings. -/
theorem toIndentedJson_eq_ok_iff {host : Host} {settings : Settings} {indent : Value}
    {layout : JsonLayout} {output : String}
    (hcopied : settings.keepStrings.nesting ≤ host.copyingLevels)
    (hlayout : JsonLayout.ofValue host indent = .ok layout) :
    settings.toIndentedJson host indent = .ok output ↔
      settings.toValue.IsWritable host { layout with ascii := true } ∧
        settings.toJson layout = output := by
  unfold toIndentedJson
  rw [toDictionary_eq_ok hcopied]
  show settings.toValue.printWith host ((JsonLayout.ofValue host indent).map _) = _ ↔ _
  rw [hlayout, Value.printWith_eq_ok_iff]
  simp only [Except.map, Except.ok.injEq, exists_eq_left']
  rfl

/-- Settings are made again from a copy of their members and from their text, if all levels of the
value in them can be gone into by copying.  What changes them changes a copy of their members.
Lines that are indented as it is asked for make a text if that can be written, and the text leads
back to the settings if all its levels can be opened. -/
theorem restored_of_isExact (host : Host) (settings : Settings) (hvalid : settings.IsValid)
    (hexact : settings.toValue.MadeOf Value.IsExact fun _ => True)
    (hcopied : settings.keepStrings.nesting ≤ host.copyingLevels) :
    (∃ members, settings.toDictionary host = .ok members ∧
      (ofMembers members = .ok settings ∧ settings.same settings = true) ∧
      ∀ changes result, settings.override changes = .ok result ↔
        ofMembers (Object.ofMembers (members ++ changes)).members = .ok result) ∧
    settings.plain.same settings = true ∧
    ∀ indent (layout : JsonLayout), (indent = .null ∧ layout = .compact ∨
        ∃ count, JsonLayout.IsWidth host count ∧ indent = .integer count ∧
          layout = .spaces count) →
      ((∃ output, settings.toIndentedJson host indent = .ok output) ↔
        settings.toValue.IsWritable host { layout with ascii := true }) ∧
      ∀ output, settings.toIndentedJson host indent = .ok output →
        (ofJson host output = .ok settings.plain ↔
          settings.toValue.nesting ≤ host.readingLevels) := by
  refine ⟨⟨settings.toMembers, toDictionary_eq_ok hcopied,
    ⟨ofMembers_toMembers hvalid, Value.same_self hexact⟩, fun changes result => ?_⟩, ?_,
    fun indent layout hindent => ?_⟩
  · rw [ofMembers_object, ofMembers_append_eq_ok_iff]
  · rw [same, toValue_plain]
    exact Value.same_plain hexact
  · obtain ⟨hspaced, hlayout⟩ :
        layout.IsSpaced ∧ JsonLayout.ofValue host indent = .ok layout := by
      rcases hindent with ⟨rfl, rfl⟩ | ⟨count, hcount, rfl, rfl⟩
      · exact ⟨JsonLayout.isSpaced_compact, rfl⟩
      · exact ⟨JsonLayout.isSpaced_spaces count, JsonLayout.ofInt_eq_ok_iff.2 ⟨hcount, rfl⟩⟩
    simp only [toIndentedJson_eq_ok_iff hcopied hlayout]
    refine ⟨⟨fun ⟨_, hwritable, _⟩ => hwritable, fun hwritable => ⟨_, hwritable, rfl⟩⟩, ?_⟩
    rintro output ⟨-, rfl⟩
    refine ⟨fun hread => ?_, ofJson_toJson hvalid hexact hspaced⟩
    have hlevels := nesting_lt_of_ofJson hread
    rw [nesting_toValue]
    rwa [plain, Value.nesting_plain] at hlevels

/-! ## Settings that are the defaults but for one value -/

theorem isValid_of_keepStrings (value : Value) : ({ keepStrings := value } : Settings).IsValid := by
  have hdefault := isValid_default
  rw [IsValid, admissible_field?_iff] at hdefault ⊢
  exact hdefault

theorem isExact_of_keepStrings {value : Value} (h : value.MadeOf Value.IsExact fun _ => True) :
    ({ keepStrings := value } : Settings).toValue.MadeOf Value.IsExact fun _ => True := by
  have hdepth : Value.IsExact (.integer 512) := by
    refine ⟨by simp, fun n hn => ?_⟩
    obtain rfl := Value.integer.inj hn
    decide
  have hdistinct : fieldNames.Nodup := by decide
  refine .object hdistinct (by simp) ?_
  simp only [toMembers, List.forall_mem_cons]
  exact ⟨h, .scalar rfl hdepth, .scalar rfl Value.isExact_null, .scalar rfl Value.isExact_null,
    .scalar rfl (Value.isExact_string _), by simp⟩

/-- Arrays, objects and texts come back from lines that are indented. -/
theorem restored_of_isExact_nested :
    ∃ output,
      toIndentedJson {} { keepStrings := .gathered [.object [("\"", .string "é\n")], .null] }
        (.integer 3) = .ok output ∧
      ofJson {} output =
        .ok { keepStrings := .list [.object [("\"", .string "é\n")], .null] } := by
  have hexact : (Value.gathered [.object [("\"", .string "é\n")], .null]).MadeOf Value.IsExact
      fun _ => True := by
    have htext : (Value.string "é\n").MadeOf Value.IsExact fun _ => True :=
      .scalar rfl (Value.isExact_string _)
    have hobject : (Value.object [("\"", .string "é\n")]).MadeOf Value.IsExact fun _ => True :=
      .object (by simp) (by simp) (List.forall_mem_singleton.2 htext)
    exact .gathered (List.forall_mem_cons.2
      ⟨hobject, List.forall_mem_singleton.2 (.scalar rfl Value.isExact_null)⟩)
  obtain ⟨-, -, hrestored⟩ :=
    restored_of_isExact {} _ (isValid_of_keepStrings _) (isExact_of_keepStrings hexact) (by decide)
  have hlength :
      (toJson (.spaces 3) { keepStrings := .gathered [.object [("\"", .string "é\n")], .null] }
        ).length ≤ ({} : Host).textLength := by
    rw [toJson, Value.toJson, String.length_ofList]
    decide +kernel
  obtain ⟨hwritten, hread⟩ := hrestored _ _ (.inr ⟨3, by decide, rfl, rfl⟩)
  obtain ⟨output, houtput⟩ := hwritten.2 ⟨by decide, hlength⟩
  exact ⟨output, houtput, (hread output houtput).2 (by decide)⟩

/-- An empty array inside as many others. -/
def nest : Nat → Value
  | 0 => .list []
  | depth + 1 => .list [nest depth]

theorem isExact_nest (depth : Nat) : (nest depth).MadeOf Value.IsExact fun _ => True := by
  induction depth with
  | zero => exact .list (by simp)
  | succ depth ih => exact .list (List.forall_mem_singleton.2 ih)

theorem nesting_nest (depth : Nat) : (nest depth).nesting = depth + 1 := by
  induction depth with
  | zero => rfl
  | succ depth ih => rw [nest, Value.nesting, Value.nestingOfItems, Value.nestingOfItems, ih]; simp

/-- Two things keep settings from coming back: an indentation of more than 64 bits, and levels that
copying cannot all go into. -/
theorem not_restored :
    ({} : Settings).toIndentedJson {} (.integer (-10 ^ 19)) =
        .error (.badIndentation .outOfRange) ∧
    ({ keepStrings := nest 600 } : Settings).IsValid ∧
    (({ keepStrings := nest 600 } : Settings).toValue.MadeOf Value.IsExact fun _ => True) ∧
    ({ keepStrings := nest 600 } : Settings).toDictionary {} = .error .tooDeep ∧
    ({ keepStrings := nest 600 } : Settings).toIndentedJson {} .null = .error .tooDeep := by
  have hdeep : ({ keepStrings := nest 600 } : Settings).toDictionary {} = .error .tooDeep := by
    refine toDictionary_eq_error ?_
    rw [nesting_nest]
    decide
  refine ⟨rfl, isValid_of_keepStrings _, isExact_of_keepStrings (isExact_nest _), hdeep, ?_⟩
  rw [toIndentedJson, hdeep]
  rfl

end Settings

end XmlToJson
