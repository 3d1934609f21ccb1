import XmlToJson.Proofs.Profiles

/-!
# Where the settings of a run come from

The settings of a run lie in layers: what single options say, the preset that an option names, and
below them what the configuration file contributes.  A field has the value of the first layer that
says something about it (`configured_in_layers`).

## Strategy

What the file contributes is settled in `Profiles.lean`; here the options are put on top of it.

* **Single options.**  `flag?` is the layer that they make.  Each option says something about one
  field (`flag?_depth`, `flag?_indent` and so on), and they lie on settings that are valid, so they
  can be bad in two ways only: `depth_iff` and `indent_iff` look at the two numbers.  The rest of
  the settings has been checked before (`admissible_iff`).
* **Presets.**  A preset replaces the settings as a whole.  It has a value in every field, so this
  is the same as one more layer (`layered_base`).
* **Refusals.**  `Refused` says which option is refused and for what: the depth before the
  indentation, and in either case a number that is bad or, where an option was left without one, no
  number at all.  Options are refused for one of these, or there are settings (`exists_refused`,
  `exists_settings`).
* **Commands.**  `runCommand_check`, `runCommand_convert` and `runCommand_refused` say what the two
  commands do with the settings, the warnings of the file and a refusal.

One thing is asked of the path of the configuration file: it has to be told what is there.  Where
that is not so, the run ends before there are any settings, although no file is there that could be
wrong (`long_path_not_missing`).
-/

namespace XmlToJson.CommandLine

/-! ## Options -/

namespace ConvertArguments

variable {arguments : ConvertArguments} {settings : Settings}

/-- What the single options say about a field. -/
def flag? (arguments : ConvertArguments) (name : String) : Option Value :=
  if name = "keep_strings" then if arguments.keepStrings then some (.bool true) else none
  else if name = "max_nesting_depth" then arguments.maxDepth.map numberSetting
  else if name = "json_indent" then arguments.indent.map numberSetting
  else none

/-- The layers of the command that converts: its options lie on what a configuration file
contributes. -/
def layers (arguments : ConvertArguments) (given : Contribution) :
    List (String → Option Value) :=
  arguments.flag? :: (fun name => (arguments.preset.bind Settings.preset?).bind (·.field? name)) ::
    given.layers

/-- Whether the option for the depth, if it is given, has a positive number. -/
def HasDepth (arguments : ConvertArguments) : Prop :=
  ∀ depth ∈ arguments.maxDepth, ∃ number, depth = some number ∧ 0 < number

/-- Whether the option for the indentation, if it is given, has a number that is not negative. -/
def HasIndent (arguments : ConvertArguments) : Prop :=
  ∀ indent ∈ arguments.indent, ∃ number, indent = some number ∧ 0 ≤ number

theorem lastOf_changes (arguments : ConvertArguments) :
    lastOf arguments.changes = arguments.flag? := by
  funext name
  obtain ⟨-, keepStrings, maxDepth, indent, -, -, -⟩ := arguments
  cases keepStrings <;> cases maxDepth <;> cases indent <;>
    simp [lastOf, changes, flag?, Object.ofMembers] <;> grind

theorem known_changes (arguments : ConvertArguments) :
    ∀ name ∈ arguments.changes.map (·.1), name ∈ Settings.fieldNames := by
  obtain ⟨-, keepStrings, maxDepth, indent, -, -, -⟩ := arguments
  cases keepStrings <;> cases maxDepth <;> cases indent <;> simp [changes, Settings.fieldNames]

theorem numberSetting_eq_iff {value : Option Int} {number : Number} :
    numberSetting value = number.toValue ↔ ∃ n, value = some n ∧ number = .integer n := by
  cases value <;> cases number <;> simp [numberSetting, Number.toValue, eq_comm]

@[simp] theorem flag?_depth :
    arguments.flag? "max_nesting_depth" = arguments.maxDepth.map numberSetting := rfl

@[simp] theorem flag?_length : arguments.flag? "max_input_length" = none := rfl

@[simp] theorem flag?_indent :
    arguments.flag? "json_indent" = arguments.indent.map numberSetting := rfl

@[simp] theorem flag?_level : arguments.flag? "logging_level" = none := rfl

theorem depth_iff (hsettings : settings.IsValid) :
    (∃ number : Number,
        layered [arguments.flag?, settings.field?] "max_nesting_depth" = some number.toValue ∧
          number.isAtMost 0 = false) ↔ arguments.HasDepth := by
  cases harguments : arguments.maxDepth with
  | none =>
      refine iff_of_true ⟨settings.maxNestingDepth, ?_, ?_⟩ (by simp [HasDepth, harguments])
      · simp [harguments]
      · exact (Settings.admissible_field?_iff.1 hsettings).1
  | some depth =>
      simp only [layered_cons, flag?_depth, harguments, Option.map_some, Option.some_or,
        Option.some.injEq, numberSetting_eq_iff, HasDepth, Option.mem_def, forall_eq']
      constructor
      · rintro ⟨-, ⟨n, rfl, rfl⟩, hpositive⟩
        exact ⟨n, rfl, by simpa [Number.isAtMost_integer] using hpositive⟩
      · rintro ⟨n, rfl, hn⟩
        exact ⟨.integer n, ⟨n, rfl, rfl⟩, by simpa [Number.isAtMost_integer] using hn⟩

theorem indent_iff (hsettings : settings.IsValid) :
    (∃ limit : Option Number,
        layered [arguments.flag?, settings.field?] "json_indent" =
          some (Settings.optional limit) ∧
          ∀ number ∈ limit, number.isBelow 0 = false) ↔ arguments.HasIndent := by
  cases harguments : arguments.indent with
  | none =>
      refine iff_of_true ⟨settings.jsonIndent, ?_, ?_⟩ (by simp [HasIndent, harguments])
      · simp [harguments]
      · exact (Settings.admissible_field?_iff.1 hsettings).2.2
  | some indent =>
      simp only [layered_cons, flag?_indent, harguments, Option.map_some, Option.some_or,
        Option.some.injEq, HasIndent, Option.mem_def, forall_eq']
      constructor
      · rintro ⟨limit, hlimit, hlimits⟩
        cases limit with
        | none => cases indent <;> contradiction
        | some number =>
            obtain ⟨n, rfl, rfl⟩ := numberSetting_eq_iff.1 hlimit
            exact ⟨n, rfl, by simpa [Number.isBelow_integer] using hlimits _ rfl⟩
      · rintro ⟨n, rfl, hn⟩
        refine ⟨some (.integer n), rfl, fun number hnumber => ?_⟩
        obtain rfl := Option.some.inj hnumber
        simpa [Number.isBelow_integer] using hn

/-- Options on top of valid settings may be given exactly if their numbers may. -/
theorem admissible_iff (hsettings : settings.IsValid) :
    Settings.Admissible (layered [arguments.flag?, settings.field?]) ↔
      arguments.HasDepth ∧ arguments.HasIndent := by
  rw [← depth_iff hsettings, ← indent_iff hsettings]
  constructor
  · exact fun h => ⟨h.depth, h.indent⟩
  · exact fun h => {
      depth := h.1
      length := ⟨settings.maxInputLength, by simp,
        (Settings.admissible_field?_iff.1 hsettings).2.1⟩
      indent := h.2
      level := ⟨settings.loggingLevel, by simp⟩ }

/-- The settings that the options are applied to. -/
def base (arguments : ConvertArguments) (settings : Settings) : Settings :=
  (arguments.preset.bind Settings.preset?).getD settings

theorem isValid_base (hsettings : settings.IsValid) : (arguments.base settings).IsValid := by
  unfold base
  cases h : arguments.preset.bind Settings.preset? with
  | none => exact hsettings
  | some preset =>
      obtain ⟨name, -, hpreset⟩ := Option.bind_eq_some_iff.1 h
      exact Settings.isValid_of_preset? hpreset

theorem settings_eq (hsettings : settings.IsValid) :
    arguments.settings settings = (arguments.base settings).override arguments.changes := by
  unfold ConvertArguments.settings
  dsimp only
  split
  · next h => rw [h, Settings.override_nil (isValid_base hsettings), base]
  · rfl

/-- The options make settings exactly if their numbers may be given. -/
theorem settings_eq_ok_iff (hsettings : settings.IsValid) {result : Settings} :
    arguments.settings settings = .ok result ↔ (arguments.HasDepth ∧ arguments.HasIndent) ∧
      result.field? = layered [arguments.flag?, (arguments.base settings).field?] := by
  rw [settings_eq hsettings, Settings.override_eq_ok_iff, lastOf_changes,
    admissible_iff (isValid_base hsettings)]
  exact and_iff_right arguments.known_changes

theorem exists_settings (hsettings : settings.IsValid) (hdepth : arguments.HasDepth)
    (hindent : arguments.HasIndent) : ∃ result, arguments.settings settings = .ok result := by
  rw [settings_eq hsettings]
  refine Settings.exists_override arguments.known_changes ?_
  rw [lastOf_changes, admissible_iff (isValid_base hsettings)]
  exact ⟨hdepth, hindent⟩

/-- Single options lie on a preset, and the preset on what was contributed. -/
theorem layered_base {given : Contribution} (h : settings.field? = layered given.layers) :
    layered [arguments.flag?, (arguments.base settings).field?] =
      layered (arguments.layers given) := by
  have hbase : (arguments.base settings).field? = layered
      ((fun name => (arguments.preset.bind Settings.preset?).bind (·.field? name)) ::
        given.layers) := by
    funext name
    rw [layered_cons, ← h]
    unfold base
    cases arguments.preset.bind Settings.preset? <;> simp
  funext name
  rw [layers, layered_cons, layered_cons, layered_cons, hbase]
  simp

/-- What options are refused for: the number of the first one that has none or a bad one. -/
inductive Refused (arguments : ConvertArguments) : SettingsFault → Prop
  | depth {n : Int} (h : arguments.maxDepth = some (some n)) (hn : n ≤ 0) :
      Refused arguments .depthNotPositive
  | noDepth (h : arguments.maxDepth = some none) : Refused arguments (.incomparable "<=" "list")
  | indent {n : Int} (hdepth : arguments.HasDepth) (h : arguments.indent = some (some n))
      (hn : n < 0) : Refused arguments .indentNegative
  | noIndent (hdepth : arguments.HasDepth) (h : arguments.indent = some none) :
      Refused arguments (.incomparable "<" "list")

/-- Options are refused for one thing or another unless their numbers may be given. -/
theorem exists_refused (h : ¬ (arguments.HasDepth ∧ arguments.HasIndent)) :
    ∃ fault, arguments.Refused fault := by
  by_cases hdepth : arguments.HasDepth
  · have hindent : ¬ arguments.HasIndent := fun hindent => h ⟨hdepth, hindent⟩
    simp only [HasIndent, not_forall] at hindent
    obtain ⟨indent, hgiven, hindent⟩ := hindent
    cases indent with
    | none => exact ⟨_, .noIndent hdepth hgiven⟩
    | some n => exact ⟨_, .indent hdepth hgiven (by simpa using hindent)⟩
  · simp only [HasDepth, not_forall] at hdepth
    obtain ⟨depth, hgiven, hdepth⟩ := hdepth
    cases depth with
    | none => exact ⟨_, .noDepth hgiven⟩
    | some n => exact ⟨_, .depth hgiven (by simpa using hdepth)⟩

theorem settings_of_refused (hsettings : settings.IsValid) {fault : SettingsFault}
    (h : arguments.Refused fault) : arguments.settings settings = .error fault := by
  have hbase : (arguments.base settings).IsValid := isValid_base hsettings
  have hlength : Settings.lengthOf ((layered [arguments.flag?, (arguments.base settings).field?]
      "max_input_length").getD .null) = .ok (arguments.base settings).maxInputLength :=
    Settings.lengthOf_eq_ok_iff.2 ⟨by simp, (Settings.admissible_field?_iff.1 hbase).2.1⟩
  have hdepthOf : arguments.HasDepth → ∃ number, Settings.depthOf
      ((layered [arguments.flag?, (arguments.base settings).field?] "max_nesting_depth").getD
        .null) = .ok number := by
    intro hdepth
    obtain ⟨number, hnumber, hpositive⟩ := (depth_iff hbase).2 hdepth
    exact ⟨number, Settings.depthOf_eq_ok_iff.2 ⟨congrArg (·.getD .null) hnumber, hpositive⟩⟩
  rw [settings_eq hsettings, Settings.override_eq arguments.known_changes, lastOf_changes]
  dsimp only
  cases h with
  | depth h hn =>
      refine Settings.ofValues_of_depthOf ?_
      rw [layered_cons, flag?_depth, h]
      refine (Settings.depthOf_toValue (.integer _)).trans ?_
      rw [Number.isAtMost_integer, decide_eq_true hn, if_pos rfl]
  | noDepth h =>
      refine Settings.ofValues_of_depthOf ?_
      rw [layered_cons, flag?_depth, h]
      rfl
  | indent hdepth h hn =>
      obtain ⟨number, hnumber⟩ := hdepthOf hdepth
      refine Settings.ofValues_of_indentOf hnumber hlength ?_
      rw [layered_cons, flag?_indent, h]
      refine (Settings.indentOf_toValue (.integer _)).trans ?_
      rw [Number.isBelow_integer, decide_eq_true hn, if_pos rfl]
  | noIndent hdepth h =>
      obtain ⟨number, hnumber⟩ := hdepthOf hdepth
      refine Settings.ofValues_of_indentOf hnumber hlength ?_
      rw [layered_cons, flag?_indent, h]
      rfl

end ConvertArguments

/-! ## Commands -/

/-- How a run ends whose options are refused: with an error, and with nothing converted, unless
an option has no number at all. -/
def refusal (files : FileTree) (warnings : List String) : SettingsFault → Except Abort Outcome
  | .incomparable operator kind => .error (.noNumber (.incomparable operator kind))
  | fault => .ok { status := 1, messages := warnings ++ ["Error: " ++ fault.message], files }

section Commands

variable {host : Host} {files : FileTree} {program : ProgramArguments} {paths : List Path}
  {profile : Profile} {warnings : List String}

theorem runCommand_check {arguments : CheckArguments}
    (h : profileOf host files arguments.config = .ok (profile, warnings)) :
    runCommand host files program (.check paths arguments) =
      (runCheck host files (program.level profile.settings) profile paths arguments).map
        (Outcome.after warnings) := by
  unfold runCommand
  dsimp only
  rw [h]
  rfl

theorem runCommand_convert {arguments : ConvertArguments} {settings : Settings}
    (h : profileOf host files arguments.config = .ok (profile, warnings))
    (hsettings : arguments.settings profile.settings = .ok settings) :
    runCommand host files program (.convert paths arguments) =
      (runConvert host files (program.level settings) { profile with settings } paths arguments).map
        (Outcome.after warnings) := by
  unfold runCommand
  dsimp only
  rw [h]
  simp only [bind, Except.bind]
  rw [hsettings]

theorem runCommand_refused {arguments : ConvertArguments} {fault : SettingsFault}
    (h : profileOf host files arguments.config = .ok (profile, warnings))
    (hfault : arguments.settings profile.settings = .error fault) :
    runCommand host files program (.convert paths arguments) = refusal files warnings fault := by
  unfold runCommand
  dsimp only
  rw [h]
  simp only [bind, Except.bind]
  rw [hfault]
  cases fault <;> rfl

end Commands

/-! ## A configuration file that names a preset -/

/-- The text of a configuration file that names a preset. -/
def presetText : String := "\x7b\"preset\": \"untrusted_input\"\x7d"

theorem ofJson_presetText :
    Value.ofJson {} presetText = .ok (.object [("preset", .string "untrusted_input")]) := by
  have hkey : JsonReader.readTextAfter "preset\": \"untrusted_input\"\x7d".toList =
      .ok ⟨"preset", ": \"untrusted_input\"\x7d".toList, by decide⟩ :=
    JsonReader.readTextAfter_eq (by cbv)
  have hname : JsonReader.readTextAfter "untrusted_input\"\x7d".toList =
      .ok ⟨"untrusted_input", ['}'], by decide⟩ :=
    JsonReader.readTextAfter_eq (by cbv)
  have hvalue : JsonReader.readValue 979 " \"untrusted_input\"\x7d".toList =
      .ok ⟨.string "untrusted_input", ['}'], by decide⟩ :=
    JsonReader.readValue_of_text rfl hname
  have hmembers : JsonReader.readMembers 979 "\"preset\": \"untrusted_input\"\x7d".toList =
      .ok ⟨[("preset", .string "untrusted_input")], [], by decide⟩ :=
    JsonReader.readMembers_of_member rfl hkey rfl hvalue rfl
  have hread : JsonReader.readValue ({} : Host).readingLevels presetText.toList =
      .ok ⟨.object [("preset", .string "untrusted_input")], [], by decide⟩ :=
    JsonReader.readValue_of_members rfl rfl hmembers
  exact Value.ofJson_of_readValue (by decide) hread

/-! ## The settings of a run -/

/-- The settings of a run are those of the first layer that has a value in a field: the single
options, the preset that an option names, the changes in the configuration file, the preset that
the file names, and the defaults.  The file takes part as a whole or not at all, and the numbers
of the options are the only thing that the command that converts can be refused for.  The path
of the file has to be one that can be asked about, and what is in it may not be nested so deep
that it cannot be read. -/
theorem configured_in_layers {host : Host} {files : FileTree} {arguments : ConvertArguments}
    (hpath : ∀ path ∈ arguments.config, ∃ found, files.find path = .ok found)
    (hlevels : ∀ path ∈ arguments.config, IsShallow host files path)
    (program : ProgramArguments) (paths : List Path) :
    ∃ given warnings, Loaded host files arguments.config given warnings ∧
      (∀ check : CheckArguments, check.config = arguments.config →
        ∃ settings : Settings, settings.field? = layered given.layers ∧
          runCommand host files program (.check paths check) =
            (runCheck host files (program.level settings) ⟨settings, given.encoding⟩ paths
              check).map (Outcome.after warnings)) ∧
      (arguments.HasDepth → arguments.HasIndent →
        ∃ settings : Settings, settings.field? = layered (arguments.layers given) ∧
          runCommand host files program (.convert paths arguments) =
            (runConvert host files (program.level settings) ⟨settings, given.encoding⟩ paths
              arguments).map (Outcome.after warnings)) ∧
      (¬ (arguments.HasDepth ∧ arguments.HasIndent) → ∃ fault, arguments.Refused fault) ∧
      ∀ fault, arguments.Refused fault →
        runCommand host files program (.convert paths arguments) =
          refusal files warnings fault := by
  obtain ⟨given, warnings, profile, hloaded, hprofile, hencoding, hfield⟩ :=
    exists_loaded hpath hlevels
  have hvalid : profile.settings.IsValid := by
    rw [Settings.IsValid, hfield]
    exact hloaded.admissible
  refine ⟨given, warnings, hloaded, fun check hcheck => ?_, fun hdepth hindent => ?_,
    ConvertArguments.exists_refused, fun fault hfault => ?_⟩
  · refine ⟨profile.settings, hfield, ?_⟩
    rw [← hcheck] at hprofile
    rw [runCommand_check hprofile, ← hencoding]
  · obtain ⟨settings, hsettings⟩ := ConvertArguments.exists_settings hvalid hdepth hindent
    refine ⟨settings, ?_, ?_⟩
    · rw [((ConvertArguments.settings_eq_ok_iff hvalid).1 hsettings).2,
        ConvertArguments.layered_base hfield]
    · rw [runCommand_convert hprofile hsettings, ← hencoding]
  · exact runCommand_refused hprofile (ConvertArguments.settings_of_refused hvalid hfault)

/-- A document and a configuration file that names a preset. -/
def presetFiles : FileTree where
  entries := [(["a.xml"], .file (Encoding.utf8Bytes "<a b='1'/>")),
    (["c.json"], .file (Encoding.utf8Bytes presetText))]

/-- Options that keep scalars as texts and name a depth and the configuration file. -/
def presetArguments : ConvertArguments where
  keepStrings := true
  maxDepth := some (some 3)
  config := some (Path.ofText "c.json")

theorem readText_presetFiles :
    presetFiles.readText {} (Path.ofText "c.json") (.string "utf-8") = .ok presetText := by
  decide +kernel

theorem find_presetFiles : presetFiles.find (Path.ofText "c.json") =
    .ok (some (["c.json"], .file (Encoding.utf8Bytes presetText))) := by
  decide +kernel

theorem isShallow_presetFiles : IsShallow {} presetFiles (Path.ofText "c.json") := by
  intro text place hread
  obtain rfl := Except.ok.inj (readText_presetFiles.symm.trans hread)
  rw [ofJson_presetText]
  simp

theorem contributes_presetFiles :
    Contributes {} presetFiles (Path.ofText "c.json")
      { preset := some Settings.untrustedInput } := by
  refine ⟨_, _, readText_presetFiles, ofJson_presetText, ?_⟩
  exact {
    preset := .inr ⟨_, _, rfl, rfl, rfl⟩
    changes := .inl ⟨by simp [Entries.lookup_cons], rfl⟩
    known := by simp
    admissible := by
      have hname : Settings.preset? "untrusted_input" = some Settings.untrustedInput := rfl
      have hlayers : layered (Contribution.layers { preset := some Settings.untrustedInput }) =
          Settings.untrustedInput.field? := by
        funext name
        simp [Contribution.layers]
      rw [hlayers]
      exact Settings.isValid_of_preset? hname
    encoding := rfl }

/-- The single options lie on the preset that the file names. -/
theorem configured_in_layers_presetFiles :
    (∀ path ∈ presetArguments.config, ∃ found, presetFiles.find path = .ok found) ∧
      (∀ path ∈ presetArguments.config, IsShallow {} presetFiles path) ∧
      ∃ settings : Settings,
        settings.field? =
          layered (presetArguments.layers { preset := some Settings.untrustedInput }) ∧
        runCommand {} presetFiles {} (.convert [Path.ofText "a.xml"] presetArguments) =
          (runConvert {} presetFiles (ProgramArguments.level {} settings)
            ⟨settings, .string "utf-8"⟩ [Path.ofText "a.xml"] presetArguments).map
              (Outcome.after []) := by
  have hpath : ∀ path ∈ presetArguments.config, ∃ found, presetFiles.find path = .ok found := by
    intro path hconfig
    obtain rfl : Path.ofText "c.json" = path := Option.some.inj hconfig
    exact ⟨_, find_presetFiles⟩
  have hlevels : ∀ path ∈ presetArguments.config, IsShallow {} presetFiles path := by
    intro path hconfig
    obtain rfl : Path.ofText "c.json" = path := Option.some.inj hconfig
    exact isShallow_presetFiles
  have hdepth : presetArguments.HasDepth := by simp [ConvertArguments.HasDepth, presetArguments]
  have hindent : presetArguments.HasIndent := by simp [ConvertArguments.HasIndent, presetArguments]
  obtain ⟨given, warnings, hloaded, -, hrun, -⟩ :=
    configured_in_layers hpath hlevels {} [Path.ofText "a.xml"]
  obtain ⟨rfl, rfl⟩ := hloaded.eq_of_contributes find_presetFiles contributes_presetFiles
  exact ⟨hpath, hlevels, hrun hdepth hindent⟩

/-- A path with a name that is too long to be asked about. -/
def longPath : Path where
  parts := [String.ofList (List.replicate 256 'a')]

/-- A configuration file that is not there, because no file can have its path, ends the run, though
the document is converted without it. -/
theorem long_path_not_missing :
    (∀ entry ∈ presetFiles.entries, entry.1 ≠ longPath.parts) ∧
      (runCommand {} presetFiles {} (.convert [Path.ofText "a.xml"]
          { config := some longPath })).map (fun _ => ()) =
        .error (.badPath ⟨.tooLong, longPath⟩) ∧
      (runCommand {} presetFiles {} (.convert [Path.ofText "a.xml"] {})).map
          (fun outcome => (outcome.status, outcome.output)) =
        .ok (0, ["\x7b\"a\": \x7b\"b\": 1\x7d\x7d"]) := by
  decide +kernel

end XmlToJson.CommandLine
