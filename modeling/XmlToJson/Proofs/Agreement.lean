import XmlToJson.Proofs.Configuration
import XmlToJson.Proofs.Deliveries

/-!
# The two commands agree

The command that checks and the command that converts look at the same files with the same settings,
and tell the same about them.  `Agree` lists what that means: they have the same status, the files
that are marked as valid are those whose data are printed, and the files that are marked as invalid
are those with an error, which is the same text.

## Strategy

Both commands run one batch, and all that they tell is a function of its reports.  So there are two
steps.

* If the batch has no outcome, neither command has one, and for the same reason
  (`runCommand_of_convertAll_abort`); the same goes for the configuration file
  (`runCommand_of_abort`).
* Otherwise checking has an outcome, `checkedOf`, whatever the reports are (`runCheck_eq`).  The
  outcome of converting is taken apart by what there is to print (`agree_of_convertAll`): no file at
  all, a single file without data, or a result.  In each case `agree_of_lines` compares the lines.
  Marks are found among them because no line above the files begins with one
  (`mark_not_mem_headingOf`), and names are not mixed up because two documents of a batch with the
  same text are the same document (`eq_of_text_eq`).

The commands part in the last case only, where there is a result that cannot be written
(`Value.IsUnwritable`): it has no layout, because the indentation in the configuration is too wide
or no whole number; it has more levels than the machine writes; or its text would be too long.  Then
checking has its outcome and converting has none.  `check_agrees_with_convert` says both, and
`wide_indentation_parts_commands` shows the first way for one file.
-/

namespace XmlToJson.CommandLine

/-- Whether a report tells what comes of converting a document. -/
structure Reports (converter : Converter) (encoding : Value) (files : FileTree) (document : Path)
    (report : FileReport) : Prop where
  path : report.path = document
  data : ∀ data, report.outcome = .ok data → ∃ conversion,
    (converter.convertFile files document encoding).outcome = .ok conversion ∧
      conversion.data = data
  error : ∀ text, report.outcome = .error text → ∃ failure,
    (converter.convertFile files document encoding).outcome = .error failure ∧
      errorText failure = .ok text

/-- What stands in front of the name of a file that was checked. -/
def mark (valid : Bool) : String := if valid then "✓ " else "✗ "

/-- Whether the outcomes of converting files and of checking them tell the same. -/
structure Agree (host : Host) (settings : Settings) (reports : List FileReport)
    (converted checked : Outcome) : Prop where
  status : converted.status = checked.status
  status_cases : checked.status = 0 ∨ checked.status = 1
  succeeds : checked.status = 0 ↔ reports ≠ [] ∧ ∀ report ∈ reports, report.isValid = true
  /-- The files are marked one after the other, below two lines on all of them. -/
  marks : ∃ heading, heading.length = 2 ∧ checked.output = heading ++ reports.flatMap checkedLines
  marked : ∀ valid name, mark valid ++ name ∈ checked.output ↔
    ∃ report ∈ reports, report.path.text = name ∧ report.isValid = valid
  /-- There is one line for each file that is not valid, behind what is told by both. -/
  errors : ∃ closing, converted.messages =
      checked.messages ++ reports.filterMap errorLine ++ closing ∧
    (closing = [] ∨ closing = ["No XML files found"])
  /-- The data of all valid files are printed. -/
  data : HasResult reports → ∃ result layout, Holds reports result ∧
    settings.jsonLayout host = .ok layout ∧ converted.output = [result.toJson layout]
  nothing : ¬ HasResult reports → converted.output = []
  /-- Several files are printed under the names that are marked as valid. -/
  printed : 1 < reports.length → ∃ (object : Object) (layout : JsonLayout),
    converted.output = [object.toValue.toJson layout] ∧
      ∀ name, (∃ value, object.get? name = some value) ↔ mark true ++ name ∈ checked.output

/-! ## Marks -/

theorem mark_mem_flatMap_iff {reports : List FileReport} {valid : Bool} {name : String} :
    mark valid ++ name ∈ reports.flatMap checkedLines ↔
      ∃ report ∈ reports, report.path.text = name ∧ report.isValid = valid := by
  rw [List.mem_flatMap]
  refine exists_congr fun report => and_congr_right fun _ => ?_
  obtain ⟨path, found⟩ := report
  cases found <;> cases valid <;>
    simp [mark, checkedLines, FileReport.isValid, Except.isOk, Except.toBool, String.ext_iff,
      eq_comm]

/-- The lines above the files that were checked. -/
def headingOf (reports : List FileReport) : List String :=
  [s!"Checked {reports.length} files, {reports.countP FileReport.isValid} valid",
    String.ofList (List.replicate 50 '-')]

theorem mark_not_mem_headingOf (reports : List FileReport) (valid : Bool) (name : String) :
    mark valid ++ name ∉ headingOf reports := by
  cases valid <;> simp [mark, headingOf, String.ext_iff, List.replicate, toString]

/-- What is printed about files that were checked, if it is not printed as JSON. -/
theorem checkReport_text (host : Host) (reports : List FileReport) :
    checkReport host reports false =
      .ok (headingOf reports ++ reports.flatMap checkedLines) := rfl

theorem mark_mem_report_iff {reports : List FileReport} {valid : Bool} {name : String} :
    mark valid ++ name ∈ headingOf reports ++ reports.flatMap checkedLines ↔
      ∃ report ∈ reports, report.path.text = name ∧ report.isValid = valid := by
  rw [List.mem_append, mark_mem_flatMap_iff]
  exact or_iff_right (mark_not_mem_headingOf reports valid name)

/-! ## Runs -/

/-- The status of both commands. -/
def commonStatus (reports : List FileReport) : Nat := if reports = [] then 1 else statusOf reports

theorem commonStatus_eq_zero_iff {reports : List FileReport} :
    commonStatus reports = 0 ↔ reports ≠ [] ∧ ∀ report ∈ reports, report.isValid = true := by
  unfold commonStatus
  split <;> simp_all [statusOf_eq_zero_iff]

theorem commonStatus_cases (reports : List FileReport) :
    commonStatus reports = 0 ∨ commonStatus reports = 1 := by
  unfold commonStatus
  split
  · exact .inr rfl
  · exact statusOf_cases reports

section Runs

variable {host : Host} {files : FileTree} {level : LogLevel} {profile : Profile}
  {paths : List Path} {batch : Logged (List FileReport)}

theorem runCheck_of_abort {check : CheckArguments} {reason : Abort}
    (h : convertAll { settings := profile.settings, host } profile.encoding files
      check.recursive paths = .error reason) :
    runCheck host files level profile paths check = .error reason := by
  unfold runCheck
  dsimp only
  rw [h]
  rfl

/-- What checking leaves behind. -/
def checkedOf (files : FileTree) (level : LogLevel) (batch : Logged (List FileReport)) :
    Outcome where
  status := commonStatus batch.outcome
  output := headingOf batch.outcome ++ batch.outcome.flatMap checkedLines
  messages := logLines level batch.log
  files := files

theorem runCheck_eq {check : CheckArguments} (hjson : check.json = false)
    (hbatch : convertAll { settings := profile.settings, host } profile.encoding files
      check.recursive paths = .ok batch) :
    runCheck host files level profile paths check = .ok (checkedOf files level batch) := by
  have hstatus : (if (!batch.outcome.isEmpty && batch.outcome.all FileReport.isValid) = true
      then 0 else 1) = commonStatus batch.outcome := by
    unfold commonStatus statusOf
    cases batch.outcome <;> simp
  unfold runCheck
  dsimp only
  rw [hbatch, hjson]
  simp only [bind, Except.bind, checkReport_text]
  show Except.ok _ = _
  rw [hstatus]
  rfl

/-- Outcomes agree if they have the common status, the lines on the files, and the data. -/
theorem agree_of_lines {settings : Settings} {reports : List FileReport}
    {converted checked : Outcome} {closing : List String}
    (hconverted : converted.status = commonStatus reports)
    (hchecked : checked.status = commonStatus reports)
    (houtput : checked.output = headingOf reports ++ reports.flatMap checkedLines)
    (hmessages : converted.messages = checked.messages ++ reports.filterMap errorLine ++ closing)
    (hclosing : closing = [] ∨ closing = ["No XML files found"])
    (hdata : HasResult reports → ∃ result layout, Holds reports result ∧
      settings.jsonLayout host = .ok layout ∧ converted.output = [result.toJson layout])
    (hnothing : ¬ HasResult reports → converted.output = []) :
    Agree host settings reports converted checked where
  status := hconverted.trans hchecked.symm
  status_cases := hchecked ▸ commonStatus_cases reports
  succeeds := hchecked ▸ commonStatus_eq_zero_iff
  marks := ⟨headingOf reports, rfl, houtput⟩
  marked valid name := by rw [houtput, mark_mem_report_iff]
  errors := ⟨closing, hmessages, hclosing⟩
  data := hdata
  nothing := hnothing
  printed := by
    intro hlength
    have hresult : HasResult reports := by
      refine ⟨fun h => ?_, fun report h => ?_⟩ <;> simp [h] at hlength
    obtain ⟨result, layout, hholds, -, hprinted⟩ := hdata hresult
    obtain ⟨object, rfl, hobject⟩ := hholds.2 (Nat.ne_of_gt hlength)
    refine ⟨object, layout, hprinted, fun name => ?_⟩
    rw [houtput, mark_mem_report_iff]
    simp only [hobject]
    constructor
    · rintro ⟨-, report, hreport, data, rfl, hdata, -⟩
      exact ⟨report, hreport, rfl, by rw [FileReport.isValid, hdata]; rfl⟩
    · rintro ⟨report, hreport, rfl, hvalid⟩
      cases hfound : report.outcome with
      | ok data => exact ⟨_, report, hreport, data, rfl, hfound, rfl⟩
      | error text => simp [FileReport.isValid, hfound, Except.isOk, Except.toBool] at hvalid

/-- Once a batch has come to an end, converting it to the standard output agrees with checking it,
unless there is a result that cannot be written. -/
theorem agree_of_convertAll {arguments : ConvertArguments} (houtput : arguments.output = none)
    (hbatch : convertAll { settings := profile.settings, host } profile.encoding files
      arguments.recursive paths = .ok batch)
    (hpaths : ∀ first ∈ batch.outcome, ∀ second ∈ batch.outcome,
      first.path.text = second.path.text → first = second) :
    (∃ converted, runConvert host files level profile paths arguments = .ok converted ∧
        Agree host profile.settings batch.outcome converted (checkedOf files level batch)) ∨
      HasResult batch.outcome ∧ ∃ result fault, Holds batch.outcome result ∧
        result.IsUnwritable host (profile.settings.jsonLayout host) fault ∧
        runConvert host files level profile paths arguments = .error (.unwritable fault) := by
  rw [runConvert_eq hbatch]
  split
  · next hempty =>
      obtain ⟨documents, records, -, -, rfl⟩ := convertAll_eq_ok_iff.1 hbatch
      obtain rfl : records = [] := List.map_eq_nil_iff.1 hempty
      have hmessages : ["No XML files found"] =
          logLines level [] ++ [].filterMap errorLine ++ ["No XML files found"] := rfl
      exact .inl ⟨_, rfl, agree_of_lines rfl rfl rfl hmessages (.inr rfl)
        (fun h => absurd rfl h.1) fun _ => rfl⟩
  · next hempty =>
      have hstatus : statusOf batch.outcome = commonStatus batch.outcome := (if_neg hempty).symm
      split
      · next hnone =>
          have hresult : ¬ HasResult batch.outcome := by simp [hasResult_iff, hnone]
          refine .inl ⟨_, rfl, agree_of_lines hstatus rfl rfl (List.append_nil _).symm (.inl rfl)
            (fun h => absurd h hresult) fun _ => rfl⟩
      · next result hsome =>
          have hresult : HasResult batch.outcome := hasResult_iff.2 ⟨hempty, result, hsome⟩
          have hholds : Holds batch.outcome result := holds_of_resultOf hpaths hsome
          cases hprinted : result.printWith host (profile.settings.jsonLayout host) with
          | error fault =>
              exact .inr ⟨hresult, result, fault, hholds,
                Value.isUnwritable_of_printWith hprinted, rfl⟩
          | ok text =>
              obtain ⟨layout, hlayout, -, rfl⟩ := Value.printWith_eq_ok_iff.1 hprinted
              refine .inl ⟨_, by rw [houtput]; rfl, agree_of_lines hstatus rfl rfl
                (List.append_nil _).symm (.inl rfl) (fun _ => ?_) fun h => absurd hresult h⟩
              exact ⟨result, layout, hholds, hlayout, rfl⟩

end Runs

/-- What is told before both outcomes makes no difference. -/
theorem Agree.after {host : Host} {settings : Settings} {reports : List FileReport}
    {converted checked : Outcome} (h : Agree host settings reports converted checked)
    (warnings : List String) :
    Agree host settings reports (converted.after warnings) (checked.after warnings) where
  status := h.status
  status_cases := h.status_cases
  succeeds := h.succeeds
  marks := h.marks
  marked := h.marked
  errors := by
    obtain ⟨closing, hmessages, hclosing⟩ := h.errors
    exact ⟨closing, by simp [Outcome.after, hmessages], hclosing⟩
  data := h.data
  nothing := h.nothing
  printed := h.printed

/-- The reports of a batch tell what comes of converting its documents. -/
theorem reports_of_convertOne {converter : Converter} {encoding : Value} {files : FileTree}
    {document : Path} {record : Logged FileReport}
    (h : convertOne converter encoding files document = .ok record) :
    Reports converter encoding files document record.outcome := by
  refine ⟨path_of_convertOne h, fun data hdata => ?_, fun text htext => ?_⟩ <;>
    unfold convertOne at h <;> dsimp only at h <;> split at h
  · next conversion hconversion =>
      obtain rfl := Except.ok.inj h
      exact ⟨conversion, hconversion, Except.ok.inj hdata⟩
  · obtain ⟨text, -, rfl⟩ := exists_of_map_ok h
    contradiction
  · obtain rfl := Except.ok.inj h
    contradiction
  · next failure hfailure =>
      obtain ⟨own, hown, rfl⟩ := exists_of_map_ok h
      obtain rfl := Except.error.inj htext
      exact ⟨failure, hfailure, hown⟩

/-- A batch has one report for each of its documents. -/
theorem reports_of_convertAll {converter : Converter} {encoding : Value} {files : FileTree}
    {recursive : Bool} {paths : List Path} {batch : Logged (List FileReport)}
    (h : convertAll converter encoding files recursive paths = .ok batch) :
    ∃ documents, documentsOf converter.host files recursive paths = .ok documents ∧
      List.Forall₂ (Reports converter encoding files) documents batch.outcome := by
  obtain ⟨documents, records, hdocuments, hrecords, rfl⟩ := convertAll_eq_ok_iff.1 h
  exact ⟨documents, hdocuments, List.forall₂_map_right_iff.2
    (hrecords.imp fun document record => reports_of_convertOne)⟩

/-- Valid settings with an indentation that has no layout ask for too many spaces, or for something
that is no whole number. -/
theorem wide_of_jsonLayout {host : Host} {settings : Settings} {fault : IndentationFault}
    (h : settings.jsonLayout host = .error fault) :
    settings.jsonIndent ≠ none ∧
      ∀ count, settings.jsonIndent = some (.integer count) → ¬ JsonLayout.IsWidth host count := by
  unfold Settings.jsonLayout at h
  constructor
  · intro hnone
    rw [hnone] at h
    contradiction
  · intro count hcount hwidth
    have hint : JsonLayout.ofInt host count = .error fault := by
      rw [hcount] at h
      exact h
    rw [JsonLayout.ofInt_eq_ok_iff.2 ⟨hwidth, rfl⟩] at hint
    contradiction

section Commands

variable {host : Host} {files : FileTree} {program : ProgramArguments} {paths : List Path}
  {recursive : Bool} {config : Option Path} {profile : Profile} {warnings : List String}
  {reason : Abort}

theorem runCommand_of_abort (h : profileOf host files config = .error reason) :
    runCommand host files program (.convert paths { recursive, config }) = .error reason ∧
      runCommand host files program (.check paths { recursive, config }) = .error reason := by
  unfold runCommand
  dsimp only
  rw [h]
  exact ⟨rfl, rfl⟩

/-- Without options the settings of the profile are used. -/
theorem runCommand_convert_files
    (hprofile : profileOf host files config = .ok (profile, warnings)) :
    runCommand host files program (.convert paths { recursive, config }) =
      (runConvert host files (program.level profile.settings) profile paths
        { recursive, config }).map (Outcome.after warnings) :=
  runCommand_convert hprofile rfl

theorem runCommand_of_convertAll_abort
    (hprofile : profileOf host files config = .ok (profile, warnings))
    (h : convertAll { settings := profile.settings, host } profile.encoding files recursive paths =
      .error reason) :
    runCommand host files program (.convert paths { recursive, config }) = .error reason ∧
      runCommand host files program (.check paths { recursive, config }) = .error reason := by
  have hconvert : runConvert host files (program.level profile.settings) profile paths
      { recursive, config } = .error reason := runConvert_of_abort h
  have hcheck : runCheck host files (program.level profile.settings) profile paths
      { recursive, config } = .error reason := runCheck_of_abort h
  rw [runCommand_convert_files hprofile, runCommand_check hprofile, hconvert, hcheck]
  exact ⟨rfl, rfl⟩

end Commands

/-- The command that checks and the command that converts to the standard output, both without other
options than those for the files, agree: either nothing comes of both for the same reason, or they
find the same documents and tell the same about them.  Only data that are there but cannot be
written keep the command that converts from having an outcome that the other one has: they have no
layout, because the indentation in the configuration is no whole number or too great a one, or they
are nested too deep, or their text would be too long. -/
theorem check_agrees_with_convert {host : Host} {files : FileTree} (hfiles : files.IsProper)
    (program : ProgramArguments) (texts : List String) (recursive : Bool)
    (config : Option Path) :
    let paths := texts.map Path.ofText
    let converting := runCommand host files program (.convert paths { recursive, config })
    let checking := runCommand host files program (.check paths { recursive, config })
    (∃ reason, converting = .error reason ∧ checking = .error reason) ∨
      ∃ profile warnings documents reports checked,
        profileOf host files config = .ok (profile, warnings) ∧
        documentsOf host files recursive paths = .ok documents ∧
        List.Forall₂ (Reports { settings := profile.settings, host } profile.encoding files)
          documents reports ∧
        checking = .ok checked ∧
        ((∃ converted, converting = .ok converted ∧
            Agree host profile.settings reports converted checked) ∨
          HasResult reports ∧ ∃ result fault, Holds reports result ∧
            result.IsUnwritable host (profile.settings.jsonLayout host) fault ∧
            (∀ reason, fault = .badIndentation reason → profile.settings.jsonIndent ≠ none ∧
              ∀ count, profile.settings.jsonIndent = some (.integer count) →
                ¬ JsonLayout.IsWidth host count) ∧
            converting = .error (.unwritable fault)) := by
  intro paths converting checking
  cases hprofile : profileOf host files config with
  | error reason => exact .inl ⟨reason, runCommand_of_abort hprofile⟩
  | ok loaded =>
      obtain ⟨profile, warnings⟩ := loaded
      cases hbatch : convertAll { settings := profile.settings, host } profile.encoding files
          recursive paths with
      | error reason => exact .inl ⟨reason, runCommand_of_convertAll_abort hprofile hbatch⟩
      | ok batch =>
          have hcheck : runCheck host files (program.level profile.settings) profile paths
              { recursive, config } =
                .ok (checkedOf files (program.level profile.settings) batch) :=
            runCheck_eq rfl hbatch
          have hchecking : checking = _ := runCommand_check hprofile
          have hconverting : converting = _ := runCommand_convert_files hprofile
          rw [hcheck] at hchecking
          obtain ⟨documents, hdocuments, hreports⟩ := reports_of_convertAll hbatch
          refine .inr ⟨profile, warnings, documents, batch.outcome, _, rfl, hdocuments, hreports,
            hchecking, ?_⟩
          rw [hconverting]
          rcases @agree_of_convertAll host files (program.level profile.settings) profile paths
              batch { recursive, config } rfl hbatch (eq_of_text_eq hfiles hbatch) with
            ⟨converted, hconverted, hagree⟩ | ⟨hresult, result, fault, hholds, hunwritable, hfault⟩
          · rw [hconverted]
            exact .inl ⟨_, rfl, hagree.after warnings⟩
          · rw [hfault]
            refine .inr ⟨hresult, result, fault, hholds, hunwritable, ?_, rfl⟩
            rintro reason rfl
            exact wide_of_jsonLayout hunwritable.layout_eq

/-- A document that is converted, and one that is not. -/
def mixedFiles : FileTree where
  entries := [(["a.xml"], .file (Encoding.utf8Bytes "<a/>")),
    (["b.xml"], .file (Encoding.utf8Bytes "<b"))]

theorem isProper_mixedFiles : mixedFiles.IsProper := by decide

theorem check_agrees_with_convert_mixedFiles :
    mixedFiles.IsProper ∧ ∃ settings reports converted checked,
      runCommand {} mixedFiles {} (.convert (["a.xml", "b.xml"].map Path.ofText) {}) =
        .ok converted ∧
      runCommand {} mixedFiles {} (.check (["a.xml", "b.xml"].map Path.ofText) {}) = .ok checked ∧
      Agree {} settings reports converted checked ∧
      converted.output = ["\x7b\"a.xml\": \x7b\"a\": \"\"\x7d\x7d"] := by
  have houtput :
      (runCommand {} mixedFiles {} (.convert (["a.xml", "b.xml"].map Path.ofText) {})).map
        Outcome.output = .ok ["\x7b\"a.xml\": \x7b\"a\": \"\"\x7d\x7d"] := by
    decide +kernel
  refine ⟨isProper_mixedFiles, ?_⟩
  rcases @check_agrees_with_convert {} _ isProper_mixedFiles {} ["a.xml", "b.xml"] false none with
    ⟨reason, hconverting, -⟩ | ⟨profile, -, -, reports, checked, -, -, -, hchecking, hcases⟩
  · rw [hconverting] at houtput
    contradiction
  · rcases hcases with
      ⟨converted, hconverting, hagree⟩ | ⟨-, result, fault, -, -, -, hconverting⟩
    · rw [hconverting] at houtput
      exact ⟨profile.settings, reports, converted, checked, hconverting, hchecking, hagree,
        Except.ok.inj houtput⟩
    · rw [hconverting] at houtput
      contradiction

/-- A machine that goes into no levels at all checks a document that it does not convert. -/
example :
    (runCommand { writingLevels := fun _ => 0 } mixedFiles {}
      (.convert (["a.xml"].map Path.ofText) {})).map Outcome.status =
        .error (.unwritable .tooDeep) ∧
    (runCommand { writingLevels := fun _ => 0 } mixedFiles {}
      (.check (["a.xml"].map Path.ofText) {})).map Outcome.status = .ok 0 := by
  decide +kernel

/-! ## A configuration file with a wide indentation -/

/-- The text of a configuration file that asks for more spaces than there can be. -/
def wideText : String := "\x7b\"converter\": \x7b\"json_indent\": 10000000000000000000\x7d\x7d"

def wideChanges : List (String × Value) := [("json_indent", .integer 10000000000000000000)]

theorem ofJson_wideText :
    Value.ofJson {} wideText = .ok (.object [("converter", .object wideChanges)]) := by
  have hscalar : JsonReader.readScalar "10000000000000000000\x7d\x7d".toList =
      .ok ⟨.integer 10000000000000000000, ['}', '}'], by decide⟩ :=
    JsonReader.readScalar_of_number rfl rfl
  have hnumber : JsonReader.readValue 978 " 10000000000000000000\x7d\x7d".toList =
      .ok ⟨.integer 10000000000000000000, ['}', '}'], by decide⟩ :=
    JsonReader.readValue_of_scalar rfl (by decide) hscalar
  have hkey : JsonReader.readTextAfter "json_indent\": 10000000000000000000\x7d\x7d".toList =
      .ok ⟨"json_indent", ": 10000000000000000000\x7d\x7d".toList, by decide⟩ :=
    JsonReader.readTextAfter_eq (by cbv)
  have hmembers :
      JsonReader.readMembers 978 "\"json_indent\": 10000000000000000000\x7d\x7d".toList =
        .ok ⟨wideChanges, ['}'], by decide⟩ :=
    JsonReader.readMembers_of_member rfl hkey rfl hnumber rfl
  have hchanges :
      JsonReader.readValue 979 " \x7b\"json_indent\": 10000000000000000000\x7d\x7d".toList =
        .ok ⟨.object wideChanges, ['}'], by decide⟩ :=
    JsonReader.readValue_of_members rfl rfl hmembers
  have hname :
      JsonReader.readTextAfter
          "converter\": \x7b\"json_indent\": 10000000000000000000\x7d\x7d".toList =
        .ok ⟨"converter",
          ": \x7b\"json_indent\": 10000000000000000000\x7d\x7d".toList, by decide⟩ :=
    JsonReader.readTextAfter_eq (by cbv)
  have hwhole : JsonReader.readMembers 979
      "\"converter\": \x7b\"json_indent\": 10000000000000000000\x7d\x7d".toList =
        .ok ⟨[("converter", .object wideChanges)], [], by decide⟩ :=
    JsonReader.readMembers_of_member rfl hname rfl hchanges rfl
  have hread : JsonReader.readValue ({} : Host).readingLevels wideText.toList =
      .ok ⟨.object [("converter", .object wideChanges)], [], by decide⟩ :=
    JsonReader.readValue_of_members rfl rfl hwhole
  exact Value.ofJson_of_readValue (by decide) hread

/-- An empty document and a configuration file with a wide indentation. -/
def wideFiles : FileTree where
  entries := [(["a.xml"], .file []), (["c.json"], .file (Encoding.utf8Bytes wideText))]

theorem profileOf_wideFiles : profileOf {} wideFiles (some (Path.ofText "c.json")) =
    .ok ({ settings := { jsonIndent := some (.integer 10000000000000000000) } }, []) := by
  have hthere : wideFiles.find (Path.ofText "c.json") =
      .ok (some (["c.json"], .file (Encoding.utf8Bytes wideText))) := by
    decide +kernel
  have htext : wideFiles.readText {} (Path.ofText "c.json") (.string "utf-8") = .ok wideText := by
    decide +kernel
  have hchanged : Profile.changed {} ((some (.object wideChanges)).getD .null) =
      .ok { jsonIndent := some (.integer 10000000000000000000) } :=
    (changed_eq_ok_iff Settings.isValid_default).2 ⟨_, .inr ⟨rfl, by simp [wideChanges]⟩, rfl⟩
  have hmembers : Profile.ofMembers [("converter", .object wideChanges)] =
      .ok { settings := { jsonIndent := some (.integer 10000000000000000000) } } :=
    bind_eq_ok_iff.2 ⟨{}, rfl, bind_eq_ok_iff.2 ⟨_, hchanged, rfl⟩⟩
  exact profileOf_of_read hthere (read_eq_ok_iff.2 ⟨_, _, htext, ofJson_wideText, hmembers⟩)

/-- An indentation that is too wide keeps a document from being converted, though it is marked as
valid. -/
theorem wide_indentation_parts_commands :
    wideFiles.IsProper ∧
      (runCommand {} wideFiles {} (.convert (["a.xml"].map Path.ofText)
          { config := some (Path.ofText "c.json") })).map (fun _ => ()) =
        .error (.unwritable (.badIndentation .outOfRange)) ∧
      (runCommand {} wideFiles {} (.check (["a.xml"].map Path.ofText)
          { config := some (Path.ofText "c.json") })).map
            (fun outcome => (outcome.status, outcome.output.drop 2)) = .ok (0, ["✓ a.xml"]) := by
  refine ⟨by decide, ?_, ?_⟩
  · rw [runCommand_convert profileOf_wideFiles rfl]
    decide +kernel
  · rw [runCommand_check profileOf_wideFiles]
    decide +kernel

end XmlToJson.CommandLine
