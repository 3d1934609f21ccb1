import XmlToJson.CommandLine.Run
import XmlToJson.Proofs.Layers

/-!
# What configuration files contribute

A configuration file takes part as a whole or not at all.  One that is right contributes a preset,
changes that lie on it, and an encoding.  One that is not there, and one that is wrong in any way,
contributes nothing, and there is a warning about the second.  `Loaded` has one constructor for each
of these cases, and what is loaded is what the program goes on with (`exists_loaded`).

## Strategy

* **What is right.**  `Contribution.IsOf` says of the members of an object that they contribute
  something, entry by entry: `NamesPreset` for the preset, `Describes` for the changes, where a
  value that does not count as true stands for none, and the encoding as it is given.  The changes
  have to be admissible on top of the preset.  An entry can be read in one way only
  (`NamesPreset.unique`, `Describes.unique`), and so can a file (`Contributes.unique`).
* **Making a profile.**  The settings are made in two steps, the preset and the changes on it, and
  each step has one lemma (`presetOf_eq_ok_iff`, `changed_eq_ok_iff`).  Together they say that
  members make a profile exactly if they are right, and that it lies in the layers of what they
  contribute (`ofMembers_eq_ok_iff`).
* **Reading the file.**  A file is read if its text can be and holds such members
  (`read_eq_ok_iff`).
* **Loading it.**  Whatever is wrong is a warning, with two exceptions.  It has to be told what the
  path stands for, and a text with more levels than the machine opens ends the run (`IsShallow`).
  The second is told from all other faults by `ofMembers_ne`: what is wrong with the members is no
  fault of the text that they come from.

What is contributed may always be the settings of a run (`Loaded.admissible`).
-/

namespace XmlToJson.CommandLine

/-! ## Contributions of configuration files -/

/-- What a configuration file contributes. -/
structure Contribution where
  changes : List (String × Value) := []
  preset : Option Settings := none
  encoding : Value := .string "utf-8"

/-- The layers that a contribution makes, on top of the defaults. -/
def Contribution.layers (given : Contribution) : List (String → Option Value) :=
  [lastOf given.changes, fun name => given.preset.bind (·.field? name), ({} : Settings).field?]

/-- Whether an entry of a configuration file, if it is there, names a preset, or none by null. -/
def NamesPreset (entry : Option Value) (preset : Option Settings) : Prop :=
  (∀ value ∈ entry, value = .null) ∧ preset = none ∨
    ∃ name settings, entry = some (.string name) ∧ Settings.preset? name = some settings ∧
      preset = some settings

/-- Whether an entry of a configuration file, if it is there, describes changes, or none by a value
that does not count as true. -/
def Describes (entry : Option Value) (changes : List (String × Value)) : Prop :=
  (∀ value ∈ entry, value.isTruthy = false) ∧ changes = [] ∨
    entry = some (.object changes) ∧ changes ≠ []

/-- Whether the members of the object in a configuration file are right and contribute this. -/
structure Contribution.IsOf (given : Contribution) (members : List (String × Value)) : Prop where
  preset : NamesPreset (members.lookup "preset") given.preset
  changes : Describes (members.lookup "converter") given.changes
  known : ∀ name ∈ given.changes.map (·.1), name ∈ Settings.fieldNames
  admissible : Settings.Admissible (layered given.layers)
  encoding : given.encoding = (members.lookup "encoding").getD (.string "utf-8")

/-- Whether a configuration file can be read, holds an object that is right and contributes
this. -/
def Contributes (host : Host) (files : FileTree) (path : Path) (given : Contribution) :
    Prop :=
  ∃ text members, files.readText host path (.string "utf-8") = .ok text ∧
    Value.ofJson host text = .ok (.object members) ∧ given.IsOf members

/-- What is contributed by the configuration file that is named, if one is, and the warnings
about it. -/
inductive Loaded (host : Host) (files : FileTree) :
    Option Path → Contribution → List String → Prop
  | unnamed : Loaded host files none {} []
  | missing {path : Path} (h : files.find path = .ok none) : Loaded host files (some path) {} []
  | right {path : Path} {there : List String × FileEntry} {given : Contribution}
      (hthere : files.find path = .ok (some there)) (h : Contributes host files path given) :
      Loaded host files (some path) given []
  | wrong {path : Path} {there : List String × FileEntry} {reason : String}
      (hthere : files.find path = .ok (some there))
      (h : ∀ given, ¬ Contributes host files path given) :
      Loaded host files (some path) {} ["Warning: Could not load config file: " ++ reason]

theorem NamesPreset.unique {entry : Option Value} {preset other : Option Settings}
    (h : NamesPreset entry preset) (hother : NamesPreset entry other) : preset = other := by
  rcases h with ⟨hnull, rfl⟩ | ⟨name, settings, rfl, hpreset, rfl⟩ <;>
    rcases hother with ⟨hothers, rfl⟩ | ⟨own, owns, hentry, hown, rfl⟩
  · rfl
  · subst hentry
    simpa using hnull _ rfl
  · simpa using hothers _ rfl
  · obtain rfl : name = own := by simpa using hentry
    exact congrArg some (Option.some.inj (hpreset.symm.trans hown))

theorem Describes.unique {entry : Option Value} {changes others : List (String × Value)}
    (h : Describes entry changes) (hother : Describes entry others) : changes = others := by
  rcases h with ⟨hfalsy, rfl⟩ | ⟨rfl, hchanges⟩ <;>
    rcases hother with ⟨hothers, rfl⟩ | ⟨hentry, hnone⟩
  · rfl
  · subst hentry
    have hnone : others = [] := by simpa [Value.isTruthy] using hfalsy _ rfl
    exact hnone.symm
  · simpa [Value.isTruthy] using hothers _ rfl
  · simpa using hentry

/-- A configuration file contributes one thing only. -/
theorem Contributes.unique {host : Host} {files : FileTree} {path : Path}
    {given other : Contribution} (h : Contributes host files path given)
    (hother : Contributes host files path other) :
    given = other := by
  obtain ⟨text, members, htext, hmembers, hgiven⟩ := h
  obtain ⟨same, others, hsame, hothers, hother⟩ := hother
  obtain rfl : text = same := Except.ok.inj (htext.symm.trans hsame)
  obtain rfl : members = others := by simpa using hmembers.symm.trans hothers
  obtain ⟨changes, preset, encoding⟩ := given
  obtain ⟨_, _, _⟩ := other
  obtain rfl := hgiven.preset.unique hother.preset
  obtain rfl := hgiven.changes.unique hother.changes
  obtain rfl := hgiven.encoding.trans hother.encoding.symm
  rfl

/-- A file that is right is loaded without a warning. -/
theorem Loaded.eq_of_contributes {host : Host} {files : FileTree} {path : Path}
    {given other : Contribution} {warnings : List String} {there : List String × FileEntry}
    (h : Loaded host files (some path) given warnings) (hthere : files.find path = .ok (some there))
    (hother : Contributes host files path other) : given = other ∧ warnings = [] := by
  cases h with
  | missing hmissing =>
      rw [hthere] at hmissing
      simp at hmissing
  | right _ h => exact ⟨h.unique hother, rfl⟩
  | wrong _ h => exact absurd hother (h other)

theorem Contribution.layered_layers (given : Contribution) :
    layered given.layers = layered [lastOf given.changes, (given.preset.getD {}).field?] := by
  funext name
  cases hpreset : given.preset <;> simp [layers, hpreset]

theorem presetOf_eq_ok_iff {entry : Option Value} {settings : Settings} :
    Profile.presetOf (entry.getD .null) = .ok settings ↔
      ∃ preset, NamesPreset entry preset ∧ settings = preset.getD {} := by
  cases entry with
  | none => simp [Profile.presetOf, NamesPreset, eq_comm]
  | some value =>
      cases value with
      | null => simp [Profile.presetOf, NamesPreset, eq_comm]
      | string name =>
          simp only [Option.getD_some, Profile.presetOf, NamesPreset]
          cases hpreset : Settings.preset? name <;> simp [hpreset, eq_comm]
      | _ => simp [Profile.presetOf, NamesPreset, Value.isContainer]

theorem describes_of_falsy {entry : Option Value} {changes : List (String × Value)}
    (h : (entry.getD .null).isTruthy = false) : Describes entry changes ↔ changes = [] := by
  constructor
  · rintro (⟨-, hchanges⟩ | ⟨rfl, hchanges⟩)
    · exact hchanges
    · exact absurd (by simpa [Value.isTruthy] using h) hchanges
  · rintro rfl
    refine .inl ⟨fun value hvalue => ?_, rfl⟩
    rwa [Option.mem_def.1 hvalue] at h

theorem describes_of_truthy {value : Value} {changes : List (String × Value)}
    (h : value.isTruthy = true) : Describes (some value) changes ↔ value = .object changes := by
  constructor
  · rintro (⟨hfalsy, -⟩ | ⟨hvalue, -⟩)
    · rw [hfalsy value rfl] at h
      contradiction
    · exact Option.some.inj hvalue
  · rintro rfl
    exact .inr ⟨rfl, by simpa [Value.isTruthy] using h⟩

/-- An entry that describes changes makes them. -/
theorem changed_eq_ok_iff {entry : Option Value} {settings result : Settings}
    (hsettings : settings.IsValid) :
    Profile.changed settings (entry.getD .null) = .ok result ↔
      ∃ changes, Describes entry changes ∧ settings.override changes = .ok result := by
  unfold Profile.changed
  cases htruthy : (entry.getD .null).isTruthy with
  | false => simp [describes_of_falsy htruthy, Settings.override_nil hsettings]
  | true =>
      obtain ⟨value, rfl⟩ : ∃ value, entry = some value := by
        cases entry with
        | none => contradiction
        | some value => exact ⟨value, rfl⟩
      rw [Option.getD_some] at htruthy ⊢
      simp only [describes_of_truthy htruthy]
      cases value with
      | object members =>
          simp only [Value.object.injEq, exists_eq_left', ← Settings.ofMembers_append_eq_ok_iff]
          cases Settings.ofMembers (settings.toMembers ++ members) <;> simp [Except.mapError]
      | _ => simp

theorem isValid_of_namesPreset {entry : Option Value} {preset : Option Settings}
    (h : NamesPreset entry preset) : (preset.getD {}).IsValid := by
  rcases h with ⟨-, rfl⟩ | ⟨name, settings, -, hpreset, rfl⟩
  · exact Settings.isValid_default
  · exact Settings.isValid_of_preset? hpreset

/-- The members of an object make a profile exactly if they are right, and it lies in the layers
of what they contribute. -/
theorem ofMembers_eq_ok_iff {members : List (String × Value)} {profile : Profile} :
    Profile.ofMembers members = .ok profile ↔
      ∃ given : Contribution, given.IsOf members ∧ profile.encoding = given.encoding ∧
        profile.settings.field? = layered given.layers := by
  unfold Profile.ofMembers
  simp only [bind_eq_ok_iff, presetOf_eq_ok_iff]
  constructor
  · rintro ⟨-, ⟨preset, hpreset, rfl⟩, settings, hchanged, hprofile⟩
    obtain rfl := Except.ok.inj hprofile
    obtain ⟨changes, hchanges, hsettings⟩ :=
      (changed_eq_ok_iff (isValid_of_namesPreset hpreset)).1 hchanged
    obtain ⟨hknown, hadmissible, hfield⟩ := Settings.override_eq_ok_iff.1 hsettings
    let encoding := (members.lookup "encoding").getD (.string "utf-8")
    let given : Contribution := ⟨changes, preset, encoding⟩
    rw [← given.layered_layers] at hadmissible hfield
    exact ⟨given, ⟨hpreset, hchanges, hknown, hadmissible, rfl⟩, rfl, hfield⟩
  · rintro ⟨given, ⟨hpreset, hchanges, hknown, hadmissible, hown⟩, hencoding, hfield⟩
    rw [given.layered_layers] at hadmissible hfield
    refine ⟨_, ⟨given.preset, hpreset, rfl⟩, profile.settings, ?_, ?_⟩
    · exact (changed_eq_ok_iff (isValid_of_namesPreset hpreset)).2
        ⟨given.changes, hchanges, Settings.override_eq_ok_iff.2 ⟨hknown, hadmissible, hfield⟩⟩
    · rw [← hown, ← hencoding]
      rfl

/-- Members that are right make a profile. -/
theorem Contribution.IsOf.exists_profile {given : Contribution} {members : List (String × Value)}
    (h : given.IsOf members) : ∃ profile, Profile.ofMembers members = .ok profile := by
  have hadmissible := h.admissible
  rw [given.layered_layers] at hadmissible
  obtain ⟨settings, hsettings⟩ := Settings.exists_override h.known hadmissible
  have hfield := (Settings.override_eq_ok_iff.1 hsettings).2.2
  rw [← given.layered_layers] at hfield
  exact ⟨⟨settings, given.encoding⟩, ofMembers_eq_ok_iff.2 ⟨given, h, rfl, hfield⟩⟩

/-- A configuration file is read exactly if it can be read as a text and holds the members of a
profile. -/
theorem read_eq_ok_iff {host : Host} {files : FileTree} {path : Path} {profile : Profile} :
    Profile.read host files path = .ok profile ↔
      ∃ text members, files.readText host path (.string "utf-8") = .ok text ∧
        Value.ofJson host text = .ok (.object members) ∧
        Profile.ofMembers members = .ok profile := by
  unfold Profile.read
  rw [bind_eq_ok_iff]
  refine exists_congr fun text => ?_
  cases files.readText host path (.string "utf-8") with
  | error fault => simp [Except.mapError]
  | ok own =>
      unfold Profile.ofJson
      cases Value.ofJson host text with
      | error problem => simp
      | ok value => cases value <;> simp [Except.mapError]

/-- What is read lies in the layers of what the file contributes. -/
theorem exists_contribution {host : Host} {files : FileTree} {path : Path} {profile : Profile}
    (h : Profile.read host files path = .ok profile) :
    ∃ given : Contribution, Contributes host files path given ∧
      profile.encoding = given.encoding ∧ profile.settings.field? = layered given.layers := by
  obtain ⟨text, members, htext, hmembers, hprofile⟩ := read_eq_ok_iff.1 h
  obtain ⟨given, hgiven, hencoding, hfield⟩ := ofMembers_eq_ok_iff.1 hprofile
  exact ⟨given, ⟨text, members, htext, hmembers, hgiven⟩, hencoding, hfield⟩

theorem exists_read_of_contributes {host : Host} {files : FileTree} {path : Path}
    {given : Contribution} (h : Contributes host files path given) :
    ∃ profile, Profile.read host files path = .ok profile := by
  obtain ⟨text, members, htext, hmembers, hgiven⟩ := h
  obtain ⟨profile, hprofile⟩ := hgiven.exists_profile
  exact ⟨profile, read_eq_ok_iff.2 ⟨text, members, htext, hmembers, hprofile⟩⟩

theorem Contribution.layered_none :
    layered ({} : Contribution).layers = ({} : Settings).field? := by
  funext name
  simp [layers]

/-- Whether a configuration file, if it can be read, is no JSON text with too many levels. -/
def IsShallow (host : Host) (files : FileTree) (path : Path) : Prop :=
  ∀ text place, files.readText host path (.string "utf-8") = .ok text →
    Value.ofJson host text ≠ .error ⟨.tooDeep, place⟩

theorem presetOf_ne (value : Value) (error : JsonError) :
    Profile.presetOf value ≠ .error (.notJson error) := by
  unfold Profile.presetOf
  split
  · simp
  · split <;> simp
  · split <;> simp

theorem changed_ne (settings : Settings) (changes : Value) (error : JsonError) :
    Profile.changed settings changes ≠ .error (.notJson error) := by
  unfold Profile.changed
  split
  · simp
  · split
    · next members _ =>
        cases Settings.ofMembers (settings.toMembers ++ members) <;> simp [Except.mapError]
    · simp

/-- What is wrong with the members is no fault of the text that they come from. -/
theorem ofMembers_ne (members : List (String × Value)) (error : JsonError) :
    Profile.ofMembers members ≠ .error (.notJson error) := by
  simp [Profile.ofMembers, bind_eq_error_iff, presetOf_ne, changed_ne, pure, Except.pure]

theorem IsShallow.read_ne {host : Host} {files : FileTree} {path : Path}
    (h : IsShallow host files path) (place : Position) :
    Profile.read host files path ≠ .error (.notJson ⟨.tooDeep, place⟩) := by
  unfold Profile.read
  cases htext : files.readText host path (.string "utf-8") with
  | error fault => simp [Except.mapError, bind, Except.bind]
  | ok text =>
      have hjson := h text place htext
      simp only [Except.mapError, bind, Except.bind, Profile.ofJson]
      split
      · next problem hproblem =>
          rw [hproblem] at hjson
          simpa using hjson
      · next members _ => exact ofMembers_ne members _
      · simp

section Profiles

variable {host : Host} {files : FileTree} {path : Path} {there : List String × FileEntry}

theorem profileOf_of_missing (h : files.find path = .ok none) :
    profileOf host files (some path) = .ok ({}, []) := by
  unfold profileOf
  simp [h, Except.mapError, bind, Except.bind, pure, Except.pure]

theorem profileOf_of_read {profile : Profile} (hthere : files.find path = .ok (some there))
    (h : Profile.read host files path = .ok profile) :
    profileOf host files (some path) = .ok (profile, []) := by
  unfold profileOf
  simp [hthere, h, Except.mapError, bind, Except.bind, pure, Except.pure]

theorem profileOf_of_fault {fault : ProfileFault} (hthere : files.find path = .ok (some there))
    (h : Profile.read host files path = .error fault)
    (hfault : ∀ place, fault ≠ .notJson ⟨.tooDeep, place⟩) :
    profileOf host files (some path) =
      .ok ({}, ["Warning: Could not load config file: " ++ fault.message]) := by
  unfold profileOf
  simp only [hthere, h, Except.mapError, bind, Except.bind, Option.isNone_some,
    Bool.false_eq_true, if_false]
  rfl

end Profiles

/-- What is loaded if the path can be asked about and the file, if it is there, does not have too
many levels. -/
theorem exists_loaded {host : Host} {files : FileTree} {config : Option Path}
    (hpath : ∀ path ∈ config, ∃ found, files.find path = .ok found)
    (hlevels : ∀ path ∈ config, IsShallow host files path) :
    ∃ given warnings profile, Loaded host files config given warnings ∧
      profileOf host files config = .ok (profile, warnings) ∧ profile.encoding = given.encoding ∧
      profile.settings.field? = layered given.layers := by
  cases config with
  | none => exact ⟨{}, [], {}, .unnamed, rfl, rfl, Contribution.layered_none.symm⟩
  | some path =>
      obtain ⟨found, hfound⟩ := hpath path rfl
      cases found with
      | none =>
          exact ⟨{}, [], {}, .missing hfound, profileOf_of_missing hfound, rfl,
            Contribution.layered_none.symm⟩
      | some there =>
          cases hread : Profile.read host files path with
          | ok profile =>
              obtain ⟨given, hgiven, hencoding, hfield⟩ := exists_contribution hread
              exact ⟨given, [], profile, .right hfound hgiven, profileOf_of_read hfound hread,
                hencoding, hfield⟩
          | error fault =>
              have hwrong : ∀ given, ¬ Contributes host files path given := by
                intro given hgiven
                obtain ⟨profile, hprofile⟩ := exists_read_of_contributes hgiven
                rw [hread] at hprofile
                contradiction
              have hfault : ∀ place, fault ≠ .notJson ⟨.tooDeep, place⟩ := by
                rintro place rfl
                exact (hlevels path rfl).read_ne place hread
              exact ⟨{}, _, {}, .wrong hfound hwrong, profileOf_of_fault hfound hread hfault, rfl,
                Contribution.layered_none.symm⟩

/-- What a configuration file contributes may be the settings of a run. -/
theorem Loaded.admissible {host : Host} {files : FileTree} {config : Option Path}
    {given : Contribution} {warnings : List String} (h : Loaded host files config given warnings) :
    Settings.Admissible (layered given.layers) := by
  have hnone : Settings.Admissible (layered ({} : Contribution).layers) := by
    rw [Contribution.layered_none]
    exact Settings.isValid_default
  cases h with
  | unnamed => exact hnone
  | missing _ => exact hnone
  | right _ h =>
      obtain ⟨text, members, -, -, hgiven⟩ := h
      exact hgiven.admissible
  | wrong _ _ => exact hnone

end XmlToJson.CommandLine
