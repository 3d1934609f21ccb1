import XmlToJson.Proofs.Layers
import XmlToJson.Proofs.Limits

/-!
# Settings that operations lead to

Settings come into being by operations, one after the other: they are made from fields, from an
object or from a JSON text, the current ones are changed, or a preset is taken.  An operation that
is refused leaves the current settings, and everything that follows, as if it had not been there
(`run_refused`).  After any operations the settings are in their bounds, unless a number in them is
the value that is no number (`bounds_of_run`).

## Strategy

* **One operation.**  Every operation but the choice of a preset changes some settings by the values
  that it gives to fields (`perform_cases`).  So what a change ensures holds after any number of
  operations (`run_induction`), and settings are always valid (`isValid_run`).  Conversely, all
  valid settings can be come to (`exists_run_eq_iff`).
* **What the bounds ask for** is not what is refused.  Refused is a number that is at most zero, and
  the value that is no number is in no order with zero, so it is taken where a number above zero is
  asked for.  It is the only one (`compareInt?_eq_none_iff`, `isAtMost_eq_false_iff`), so valid
  settings are in their bounds exactly if the numbers in them are in order with zero
  (`inBounds_iff`).
* **Where it comes from.**  The value that is no number is in no bounded field unless an operation
  gives it to one (`isOrdered_run`), by induction on the operations: what a change does not give to
  a field was there before (`field?_of_override`).
* **The guard.**  The limit on the depth is the guard of the converter.  What a conversion counts is
  never above it (`Converter.depth_of_isValid`), but there are two limits that no level is above:
  the infinite one and the one that is no number (`exists_isBelow_iff`).  With these no element is
  refused for its depth (`Converter.not_tooDeep_of_unguarded`).

`nan_passes` follows the value through a JSON text into the settings.
-/

namespace XmlToJson

/-! ## Numbers that are in order -/

namespace Number

/-- Whether the number is greater than a whole number. -/
def IsAbove (number : Number) (n : Int) : Prop := number.compareInt? n = some .gt

/-- Whether the number is a whole number or greater than it. -/
def IsAtLeast (number : Number) (n : Int) : Prop :=
  number.compareInt? n = some .gt ∨ number.compareInt? n = some .eq

/-- Only the one that is no number is in no order with the whole numbers. -/
theorem compareInt?_eq_none_iff {number : Number} {n : Int} :
    number.compareInt? n = none ↔ number = .float .nan := by
  rcases number with value | (_ | negative | ⟨negative, mantissa, exponent⟩) | value <;>
    simp [compareInt?, Binary64.compareInt?]

theorem isAtMost_eq_false_iff {number : Number} {n : Int} :
    number.isAtMost n = false ↔ number.IsAbove n ∨ number = .float .nan := by
  rw [← @compareInt?_eq_none_iff number n, isAtMost, IsAbove]
  rcases number.compareInt? n with _ | _ | _ | _ <;> decide

theorem isBelow_eq_false_iff {number : Number} {n : Int} :
    number.isBelow n = false ↔ number.IsAtLeast n ∨ number = .float .nan := by
  rw [← @compareInt?_eq_none_iff number n, isBelow, IsAtLeast]
  rcases number.compareInt? n with _ | _ | _ | _ <;> decide

theorem IsAbove.isAtLeast {number : Number} {n : Int} (h : number.IsAbove n) :
    number.IsAtLeast n := .inl h

theorem not_isAbove_nan (n : Int) : ¬ (Number.float .nan).IsAbove n := by
  rintro ⟨⟩

theorem not_isAtLeast_nan (n : Int) : ¬ (Number.float .nan).IsAtLeast n := by
  rintro (⟨⟨⟩⟩ | ⟨⟨⟩⟩)

/-- Above every number there is a level, but not above the infinite one and the one that is no
number. -/
theorem exists_isBelow_iff {number : Number} : (∃ level : Nat, number.isBelow level = true) ↔
    number ≠ .float .nan ∧ number ≠ .float (.infinite false) := by
  rcases number with value | (_ | negative | ⟨negative, mantissa, exponent⟩) | value
  · refine iff_of_true ⟨value.toNat + 1, ?_⟩ (by simp)
    rw [isBelow_integer, decide_eq_true_eq]
    omega
  · simp [isBelow, compareInt?, Binary64.compareInt?]
  · cases negative <;> simp [isBelow, compareInt?, Binary64.compareInt?]
  · refine iff_of_true ⟨(Binary64.ratio mantissa exponent).1 + 1, ?_⟩ (by simp)
    have hpos : 0 < (Binary64.ratio mantissa exponent).2 := by
      unfold Binary64.ratio
      split
      · exact Nat.one_pos
      · exact Nat.pow_pos (by decide)
    have hless : (if negative then -((Binary64.ratio mantissa exponent).1 : Int)
        else (Binary64.ratio mantissa exponent).1) <
        (((Binary64.ratio mantissa exponent).1 + 1 : Nat) : Int) *
          (Binary64.ratio mantissa exponent).2 := by
      have hle : (Binary64.ratio mantissa exponent).1 + 1 ≤
          ((Binary64.ratio mantissa exponent).1 + 1) * (Binary64.ratio mantissa exponent).2 :=
        Nat.le_mul_of_pos_right _ hpos
      rw [← Int.natCast_mul]
      split <;> omega
    have hcompare : Binary64.compareFinite negative mantissa exponent
        ((Binary64.ratio mantissa exponent).1 + 1 : Nat) = .lt := if_pos hless
    rw [isBelow, compareInt?, Binary64.compareInt?, hcompare]
    rfl
  · refine iff_of_true ⟨2, ?_⟩ (by simp)
    cases value <;> decide

end Number

/-! ## The guard on the depth -/

/-- Whether some level is above the limit on the depth, so that elements are refused at all. -/
def Settings.IsGuarded (settings : Settings) : Prop :=
  ∃ level : Nat, settings.maxNestingDepth.isBelow level = true

namespace Builder

variable {converter : Converter} {ceiling : Option Nat}

/-- An element is refused by its name only if there is a guard. -/
theorem isGuarded_of_apply {builder : Builder} {entry : Entry} {limit : Number} {tag : String}
    {position : Option Position}
    (h : builder.apply converter ceiling entry =
      .error (.refused (.tooDeep limit (some tag) position))) :
    converter.settings.IsGuarded := by
  obtain ⟨event, start, behind⟩ := entry
  cases event with
  | opened name =>
      change builder.openElement converter ceiling name start behind = _ at h
      unfold openElement at h
      dsimp only at h
      split at h
      · next hbelow => exact ⟨_, hbelow⟩
      · split at h <;> simp at h
  | attr name value => simpa using (overflows_of_addAttribute h).1
  | text text =>
      have hoverflows : _ ∧ converter.Overflows (.text text) := overflows_of_contributeText rfl h
      simpa using hoverflows.1
  | cdata text =>
      have hoverflows : _ ∧ converter.Overflows (.cdata text) := overflows_of_contributeText rfl h
      simpa using hoverflows.1
  | entered | selfClosed | comment | instruction | declaration | closed => simp [apply] at h

theorem isGuarded_of_follow {fault : Option MarkupError} {entries : List Entry} {builder : Builder}
    {limit : Number} {tag : String} {position : Option Position}
    (h : (builder.follow converter ceiling fault entries).outcome =
      .error (.refused (.tooDeep limit (some tag) position))) :
    converter.settings.IsGuarded := by
  induction entries generalizing builder with
  | nil => cases fault <;> simp [follow] at h
  | cons entry rest ih =>
      rw [follow] at h
      cases happly : builder.apply converter ceiling entry with
      | error failure =>
          rw [happly] at h
          obtain rfl := Except.error.inj h
          exact isGuarded_of_apply happly
      | ok next =>
          rw [happly] at h
          exact ih h

end Builder

/-- Without a guard no element is refused for its depth. -/
theorem Converter.not_tooDeep_of_unguarded {converter : Converter} {text : String} {limit : Number}
    {tag : String} {position : Option Position}
    (h : ¬ converter.settings.IsGuarded) :
    (converter.convert text).outcome ≠ .error (.refused (.tooDeep limit (some tag) position)) := by
  intro hdeep
  cases hlength : converter.exceededLimit? text with
  | some found => simp [convert, hlength] at hdeep
  | none =>
      rw [convert_outcome hlength] at hdeep
      cases hfollow : ((converter.machine text).builder.follow converter converter.ceiling
          (Trace.ofText text).fault (Trace.ofText text).entries).outcome with
      | ok found => simp [hfollow, Except.map] at hdeep
      | error failure =>
          obtain rfl : failure = _ := by simpa [hfollow, Except.map] using hdeep
          exact h (Builder.isGuarded_of_follow hfollow)

/-- An accepted document is not deeper than the limit of valid settings. -/
theorem Converter.depth_of_isValid {converter : Converter} {text : String} {found : Conversion}
    (hvalid : converter.settings.IsValid) (h : (converter.convert text).outcome = .ok found) :
    converter.settings.maxNestingDepth.isBelow found.metrics.depth = false := by
  refine depth_of_convert
    (motive := fun depth => converter.settings.maxNestingDepth.isBelow (depth : Nat) = false)
    ?_ (fun _ hlevel => hlevel) h
  have hpositive := (Settings.admissible_field?_iff.1 hvalid).1
  rw [Number.isAtMost_eq_false_iff] at hpositive
  exact Number.isBelow_eq_false_iff.2 (hpositive.imp_left Number.IsAbove.isAtLeast)

/-! ## Operations -/

namespace Settings

/-- A way to come to settings. -/
inductive Operation where
  /-- Takes the default settings with fields changed. -/
  | make (fields : List (String × Value))
  /-- Takes the settings that the members of an object give. -/
  | makeOfMembers (members : List (String × Value))
  /-- Takes the settings that a JSON text gives on a machine. -/
  | makeOfJson (host : Host) (text : String)
  /-- Changes the current settings. -/
  | change (changes : List (String × Value))
  /-- Takes settings that have a name. -/
  | choose (preset : { entry // entry ∈ presets })

namespace Operation

/-- The settings that an operation leads to, or why it is refused. -/
def perform (settings : Settings) : Operation → Except SettingsFault Settings
  | make fields => ofFields fields
  | makeOfMembers members => ofMembers members
  | makeOfJson host text => ofJson host text
  | change changes => settings.override changes
  | choose preset => .ok preset.val.2

/-- The settings after an operation: what it leads to, or the ones before if it is refused. -/
def after (settings : Settings) (operation : Operation) : Settings :=
  match operation.perform settings with
  | .ok result => result
  | .error _ => settings

/-- The values that an operation gives to fields. -/
def given : Operation → List (String × Value)
  | make fields => fields
  | makeOfMembers members => members
  | makeOfJson host text =>
      match Value.ofJson host text with
      | .ok (.object members) => members
      | _ => []
  | change changes => changes
  | choose _ => []

/-- An operation changes the default settings or the current ones by what it gives, or it takes
a preset. -/
theorem perform_cases {settings result : Settings} {operation : Operation}
    (h : operation.perform settings = .ok result) :
    (∃ base, (base = {} ∨ base = settings) ∧ base.override operation.given = .ok result) ∨
      ∃ entry ∈ presets, entry.2 = result := by
  cases operation with
  | make fields => exact .inl ⟨{}, .inl rfl, h⟩
  | makeOfMembers members => exact .inl ⟨{}, .inl rfl, ofMembers_eq_ok_iff.1 h⟩
  | makeOfJson host text =>
      refine .inl ⟨{}, .inl rfl, ?_⟩
      change ofJson host text = _ at h
      unfold ofJson at h
      split at h
      · contradiction
      · next members hread =>
          rw [given, hread]
          exact ofMembers_eq_ok_iff.1 h
      · contradiction
  | change changes => exact .inl ⟨settings, .inr rfl, h⟩
  | choose preset => exact .inr ⟨preset.val, preset.property, Except.ok.inj h⟩

end Operation

/-- The settings after operations, the first of them on the default settings. -/
def run (operations : List Operation) : Settings := operations.foldl Operation.after {}

theorem run_concat (operations : List Operation) (operation : Operation) :
    run (operations ++ [operation]) = operation.after (run operations) := by
  rw [run, List.foldl_append]
  rfl

/-- What every operation keeps if it is not refused holds after all operations. -/
theorem run_induction {holds : Settings → Prop} {operations : List Operation}
    (hdefault : holds {})
    (hstep : ∀ operation ∈ operations, ∀ settings result, holds settings →
      operation.perform settings = .ok result → holds result) : holds (run operations) := by
  induction operations using List.reverseRecOn with
  | nil => exact hdefault
  | append_singleton operations last ih =>
      have hbefore : holds (run operations) :=
        ih fun operation hmem => hstep operation (List.mem_append_left _ hmem)
      rw [run_concat, Operation.after]
      split
      · next result hresult => exact hstep last (by simp) _ _ hbefore hresult
      · exact hbefore

/-- An operation that is refused might as well not be there. -/
theorem run_refused {before : List Operation} {operation : Operation} {fault : SettingsFault}
    (h : operation.perform (run before) = .error fault) (rest : List Operation) :
    run (before ++ operation :: rest) = run (before ++ rest) := by
  have hafter : operation.after (run before) = run before := by rw [Operation.after, h]
  rw [run, List.foldl_append, List.foldl_cons, ← run, hafter, run, ← List.foldl_append]
  rfl

/-! ## What settings satisfy after operations -/

/-- Whether the fields are in their bounds: the limits are above zero, the indentation is not below
it, and the level is one of the five that have a name. -/
structure InBounds (settings : Settings) : Prop where
  depth : settings.maxNestingDepth.IsAbove 0
  length : ∀ limit ∈ settings.maxInputLength, limit.IsAbove 0
  indent : ∀ indent ∈ settings.jsonIndent, indent.IsAtLeast 0
  level : settings.loggingLevel.name ∈ ["DEBUG", "INFO", "WARNING", "ERROR", "CRITICAL"]

/-- The names of the fields that are compared with zero. -/
def boundedNames : List String := ["max_nesting_depth", "max_input_length", "json_indent"]

/-- Whether the fields that are compared with zero are in order with it. -/
def IsOrdered (settings : Settings) : Prop :=
  ∀ name ∈ boundedNames, settings.field? name ≠ some (.float .nan)

theorem isOrdered_iff {settings : Settings} : settings.IsOrdered ↔
    settings.maxNestingDepth ≠ .float .nan ∧ settings.maxInputLength ≠ some (.float .nan) ∧
      settings.jsonIndent ≠ some (.float .nan) := by
  have hvalue : ∀ number : Number, number.toValue = .float .nan ↔ number = .float .nan :=
    fun number => ⟨fun h => toValue_inj (h.trans rfl), fun h => by rw [h]; rfl⟩
  have hoptional : ∀ limit : Option Number,
      optional limit = .float .nan ↔ limit = some (.float .nan) :=
    fun limit => ⟨fun h => optional_inj (h.trans rfl), fun h => by rw [h]; rfl⟩
  simp [IsOrdered, boundedNames, hvalue, hoptional]

/-- Valid settings are in their bounds as far as the numbers in them are in order with zero. -/
theorem inBounds_iff {settings : Settings} (h : settings.IsValid) :
    settings.InBounds ↔ settings.IsOrdered := by
  obtain ⟨hdepth, hlength, hindent⟩ := admissible_field?_iff.1 h
  rw [isOrdered_iff]
  constructor
  · rintro ⟨hdepth, hlength, hindent, -⟩
    refine ⟨?_, ?_, ?_⟩
    · intro hnan
      exact Number.not_isAbove_nan 0 (hnan ▸ hdepth)
    · intro hnan
      exact Number.not_isAbove_nan 0 (hlength _ hnan)
    · intro hnan
      exact Number.not_isAtLeast_nan 0 (hindent _ hnan)
  · rintro ⟨hdepthOrdered, hlengthOrdered, hindentOrdered⟩
    refine ⟨?_, ?_, ?_, ?_⟩
    · exact (Number.isAtMost_eq_false_iff.1 hdepth).resolve_right hdepthOrdered
    · intro limit hlimit
      refine (Number.isAtMost_eq_false_iff.1 (hlength limit hlimit)).resolve_right ?_
      rintro rfl
      exact hlengthOrdered hlimit
    · intro indent hmem
      refine (Number.isBelow_eq_false_iff.1 (hindent indent hmem)).resolve_right ?_
      rintro rfl
      exact hindentOrdered hmem
    · cases settings.loggingLevel <;> decide

theorem isValid_run (operations : List Operation) : (run operations).IsValid := by
  refine run_induction isValid_default ?_
  intro operation _ settings result _ hresult
  rcases Operation.perform_cases hresult with ⟨base, -, hoverride⟩ | ⟨entry, hentry, rfl⟩
  · exact isValid_of_override hoverride
  · exact isValid_of_mem_presets entry hentry

theorem exists_given {members : List (String × Value)} {name : String} {value : Value}
    (h : lastOf members name = some value) : (name, value) ∈ members := by
  induction members using List.reverseRecOn with
  | nil => simp at h
  | append_singleton members last ih =>
      obtain ⟨key, found⟩ := last
      rw [lastOf_concat] at h
      split at h
      · next hname =>
          obtain rfl := hname
          obtain rfl := Option.some.inj h
          simp
      · exact List.mem_append_left _ (ih h)

/-- What a change does not give to a field was there before. -/
theorem field?_of_override {settings result : Settings} {changes : List (String × Value)}
    {name : String} {value : Value} (h : settings.override changes = .ok result)
    (hvalue : result.field? name = some value) :
    (name, value) ∈ changes ∨ settings.field? name = some value := by
  obtain ⟨-, -, hfield⟩ := override_eq_ok_iff.1 h
  rw [hfield, layered_cons, Option.or_eq_some_iff] at hvalue
  rcases hvalue with hlast | ⟨-, hbefore⟩
  · exact .inl (exists_given hlast)
  · exact .inr (by simpa using hbefore)

/-- The value that is no number is in no bounded field unless an operation gives it to one. -/
theorem isOrdered_run {operations : List Operation}
    (h : ∀ operation ∈ operations, ∀ name ∈ boundedNames,
      (name, .float .nan) ∉ operation.given) : (run operations).IsOrdered := by
  have hdefault : ({} : Settings).IsOrdered := by
    rw [isOrdered_iff]
    decide
  have hpresets : ∀ preset ∈ presets, preset.2.IsOrdered := by
    simp only [presets, List.forall_mem_cons, isOrdered_iff]
    decide
  refine run_induction hdefault ?_
  intro operation hmem settings result hsettings hresult
  rcases Operation.perform_cases hresult with ⟨base, hbase, hoverride⟩ | ⟨entry, hentry, rfl⟩
  · have hordered : base.IsOrdered := by
      rcases hbase with rfl | rfl
      · exact hdefault
      · exact hsettings
    intro name hname hnan
    rcases field?_of_override hoverride hnan with hgiven | hbefore
    · exact h operation hmem name hname hgiven
    · exact hordered name hname hbefore
  · exact hpresets entry hentry

/-- All valid settings can be come to. -/
theorem exists_run_eq_iff {settings : Settings} :
    (∃ operations, run operations = settings) ↔ settings.IsValid := by
  constructor
  · rintro ⟨operations, rfl⟩
    exact isValid_run operations
  · intro h
    have hmade : ofMembers (settings.toMembers ++ []) = .ok settings :=
      ofMembers_append_eq_ok_iff.2 (override_nil h)
    refine ⟨[.makeOfMembers settings.toMembers], ?_⟩
    rw [List.append_nil] at hmade
    rw [← List.nil_append [_], run_concat, Operation.after, Operation.perform, hmade]

/-! ## The bounds and the guard -/

/-- After any operations the settings are in their bounds if and only if none of the numbers in
them is the value that is no number, which only operations that give it bring in.  An operation
that is refused might as well not be there.  The depth of an accepted document is never above the
limit, and within it if the limit is a number.  There is a level above the limit unless that is
infinite or no number; without one no element is refused, however deep it stands. -/
theorem bounds_of_run (operations : List Operation) :
    ((run operations).InBounds ↔ (run operations).maxNestingDepth ≠ .float .nan ∧
      (run operations).maxInputLength ≠ some (.float .nan) ∧
      (run operations).jsonIndent ≠ some (.float .nan)) ∧
    ((∀ operation ∈ operations, ∀ name ∈ boundedNames, (name, .float .nan) ∉ operation.given) →
      (run operations).InBounds) ∧
    (∀ operation fault, operation.perform (run operations) = .error fault →
      ∀ rest, run (operations ++ operation :: rest) = run (operations ++ rest)) ∧
    (∀ converter : Converter, converter.settings = run operations →
      ∀ text found, (converter.convert text).outcome = .ok found →
        (run operations).maxNestingDepth.isBelow found.metrics.depth = false ∧
        ((run operations).maxNestingDepth ≠ .float .nan →
          (run operations).maxNestingDepth.IsAtLeast found.metrics.depth)) ∧
    ((run operations).IsGuarded ↔ (run operations).maxNestingDepth ≠ .float .nan ∧
      (run operations).maxNestingDepth ≠ .float (.infinite false)) ∧
    (¬ (run operations).IsGuarded → ∀ converter : Converter, converter.settings = run operations →
      ∀ text limit tag position, (converter.convert text).outcome ≠
        .error (.refused (.tooDeep limit (some tag) position))) := by
  have hvalid := isValid_run operations
  refine ⟨?_, ?_, fun operation fault h rest => run_refused h rest, ?_,
    Number.exists_isBelow_iff, ?_⟩
  · rw [inBounds_iff hvalid, isOrdered_iff]
  · intro hgiven
    exact (inBounds_iff hvalid).2 (isOrdered_run hgiven)
  · intro converter hsettings text found hfound
    rw [← hsettings] at hvalid ⊢
    have hbelow := Converter.depth_of_isValid hvalid hfound
    exact ⟨hbelow, (Number.isBelow_eq_false_iff.1 hbelow).resolve_right⟩
  · intro hunguarded converter hsettings text limit tag position
    rw [← hsettings] at hunguarded
    exact Converter.not_tooDeep_of_unguarded hunguarded

/-- A change of the limit on the depth to three. -/
def changeToThree : Operation := .change [("max_nesting_depth", .integer 3)]

theorem bounds_of_run_three :
    (run [changeToThree]).InBounds ∧ (run [changeToThree]).IsGuarded ∧
      ∃ found, (({ settings := run [changeToThree] } : Converter).convert
        "<a><b/></a>").outcome = .ok found ∧
        (Number.integer 3).IsAtLeast found.metrics.depth := by
  have hlimit : (run [changeToThree]).maxNestingDepth = .integer 3 := by rfl
  have hok : (({ settings := run [changeToThree] } : Converter).convert
      "<a><b/></a>").outcome.toOption.isSome = true := by
    decide +kernel
  obtain ⟨found, hfound⟩ := exists_of_isSome hok
  obtain ⟨-, hgiven, -, hdepth, hguarded, -⟩ := bounds_of_run [changeToThree]
  rw [hlimit] at hdepth hguarded
  refine ⟨hgiven ?_, hguarded.2 ⟨by simp, by simp⟩, found, hfound, ?_⟩
  · simp [boundedNames, changeToThree, Operation.given]
  · exact (hdepth _ rfl _ found hfound).2 (by simp)

/-- A JSON text that gives the value that is no number for the depth. -/
def nanText : String := "\x7b\"max_nesting_depth\": NaN\x7d"

theorem ofJson_nanText :
    Value.ofJson {} nanText = .ok (.object [("max_nesting_depth", .float .nan)]) := by
  have hkey : JsonReader.readTextAfter "max_nesting_depth\": NaN\x7d".toList =
      .ok ⟨"max_nesting_depth", ": NaN\x7d".toList, by decide⟩ :=
    JsonReader.readTextAfter_eq (by cbv)
  have hscalar : JsonReader.readScalar "NaN\x7d".toList =
      .ok ⟨.float .nan, ['\x7d'], by decide⟩ := by
    rfl
  have hvalue : JsonReader.readValue 979 " NaN\x7d".toList =
      .ok ⟨.float .nan, ['\x7d'], by decide⟩ :=
    JsonReader.readValue_of_scalar rfl (by decide) hscalar
  have hmembers : JsonReader.readMembers 979 "\"max_nesting_depth\": NaN\x7d".toList =
      .ok ⟨[("max_nesting_depth", .float .nan)], [], by decide⟩ :=
    JsonReader.readMembers_of_member rfl hkey rfl hvalue rfl
  have hread : JsonReader.readValue ({} : Host).readingLevels nanText.toList =
      .ok ⟨.object [("max_nesting_depth", .float .nan)], [], by decide⟩ :=
    JsonReader.readValue_of_members rfl rfl hmembers
  exact Value.ofJson_of_readValue (by decide) hread

/-- The value that is no number passes as a limit on the depth: it is not above zero, and no
element is too deep for it. -/
theorem nan_passes :
    Operation.perform {} (.makeOfJson {} nanText) =
        .ok { ({} : Settings) with maxNestingDepth := .float .nan } ∧
      ¬ (run [.makeOfJson {} nanText]).InBounds ∧ ¬ (run [.makeOfJson {} nanText]).IsGuarded := by
  have hperform : Operation.perform {} (.makeOfJson {} nanText) =
      .ok { ({} : Settings) with maxNestingDepth := .float .nan } := by
    rw [Operation.perform, ofJson, ofJson_nanText]
    exact ofMembers_eq_ok_iff.2 rfl
  have hrun : run [.makeOfJson {} nanText] = { maxNestingDepth := .float .nan } := by
    rw [← List.nil_append [_], run_concat, Operation.after]
    change (match Operation.perform {} (.makeOfJson {} nanText) with
      | .ok result => result
      | .error _ => {}) = _
    rw [hperform]
  rw [hrun]
  refine ⟨hperform, fun hbounds => Number.not_isAbove_nan 0 hbounds.depth, ?_⟩
  exact fun hguarded => (Number.exists_isBelow_iff.1 hguarded).1 rfl

end Settings

end XmlToJson
