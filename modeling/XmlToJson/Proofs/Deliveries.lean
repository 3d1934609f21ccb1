import XmlToJson.CommandLine.Run
import XmlToJson.Proofs.Batches
import XmlToJson.Proofs.JsonWriting
import XmlToJson.Proofs.Rendering

/-!
# What the command that converts delivers

A run of the command that converts says what came of every file of its batch and delivers the data
of those that were converted.  `Delivers` lists what that means: the status, the lines, the data and
the files afterwards.  Together with `Apart`, which is about the batch, it is what the command does
(`apart_and_delivers`).

## Strategy

* **The result.**  A single file gives its own data, and several give an object with the data of
  each under its path, where a later file replaces an earlier one with the same path.  `Holds` says
  what the result holds without regard to the order.  Nothing is replaced by anything else, because
  in a proper tree two documents with the same text are the same document (`eq_of_text_eq`), so
  `holds_of_resultOf` reads the members of the object as the files (`Object.get?_ofMembers`).
* **A run** has an outcome if its batch comes to an end and the result, if there is one, can be
  delivered (`exists_runConvert_iff`).  `CanDeliver` says when: there is a layout, the machine
  writes the result in it, and a file can have the path of the output.
* **Its outcome** is one of three: the result is printed, written, or cannot be written
  (`deliver_cases`).  In each of them `Delivers` holds (`delivers_of_deliver`), and without a result
  nothing is delivered and the run fails (`delivers_of_not_hasResult`).

The last sections are about one file that ends the batch for all others: a document of ones is read
from bytes of ASCII characters (`readText_asciiBytes`), it is one element with a text
(`renders_ones`), and that text is a whole number with too many digits (`isLongInteger_ones`), so
there is no outcome (`long_integer_aborts_batch`).
-/

namespace XmlToJson

/-! ## Objects that are made from members -/

namespace Object

/-- Where every key has one value only, the object holds the members and nothing else. -/
theorem get?_ofMembers {members : List (String × Value)}
    (hvalues : ∀ key value other, (key, value) ∈ members → (key, other) ∈ members →
      value = other) (key : String) (value : Value) :
    (ofMembers members).get? key = some value ↔ (key, value) ∈ members := by
  induction members using List.reverseRecOn with
  | nil => simp [ofMembers]
  | append_singleton members last ih =>
      obtain ⟨name, content⟩ := last
      have hmembers := ih fun key value other h hother =>
        hvalues key value other (List.mem_append_left _ h) (List.mem_append_left _ hother)
      rw [ofMembers_concat, get?_set, List.mem_append, List.mem_singleton, Prod.mk.injEq]
      by_cases hname : key = name
      · subst hname
        rw [if_pos rfl, Option.some.injEq]
        constructor
        · exact fun h => .inr ⟨rfl, h.symm⟩
        · rintro (h | ⟨-, h⟩)
          · exact hvalues key content value (by simp) (List.mem_append_left _ h)
          · exact h.symm
      · simp [hname, hmembers]

end Object

namespace CommandLine

/-- Whether there is something to write about the files: at least one is there, and a single one was
converted. -/
def HasResult (reports : List FileReport) : Prop :=
  reports ≠ [] ∧ ∀ report, reports = [report] → report.isValid = true

/-- Whether a value holds the data of every file that was converted, and nothing else: a
single file gives its own data, and each of several files has its data under its path. -/
def Holds (reports : List FileReport) (result : Value) : Prop :=
  (∀ report data, reports = [report] → report.outcome = .ok data → result = data.toValue) ∧
    (reports.length ≠ 1 → ∃ object : Object, result = object.toValue ∧
      ∀ key value, object.get? key = some value ↔
        ∃ report ∈ reports, ∃ data, report.path.text = key ∧ report.outcome = .ok data ∧
          data.toValue = value)

/-- Whether the result, if there is one, can be written, and has an output that a file can be. -/
structure CanDeliver (host : Host) (files : FileTree) (settings : Settings)
    (arguments : ConvertArguments) (reports : List FileReport) : Prop where
  written : ∀ result, resultOf reports = some result → ∃ layout,
    settings.jsonLayout host = .ok layout ∧ result.IsWritable host layout
  output : ∀ path, arguments.output = some path → files.locate path ≠ .error .unnameable

/-- Whether a run that converts files tells what came of them and delivers their data. -/
structure Delivers (host : Host) (files : FileTree) (level : LogLevel) (settings : Settings)
    (arguments : ConvertArguments) (batch : Logged (List FileReport)) (outcome : Outcome) :
    Prop where
  status : outcome.status = 0 ∨ outcome.status = 1
  /-- The run succeeds if there are files, all of them are converted, and the result can be
  written. -/
  succeeds : outcome.status = 0 ↔
    batch.outcome ≠ [] ∧ (∀ report ∈ batch.outcome, report.isValid = true) ∧
      ∀ path, arguments.output = some path → files.CanWrite path
  /-- There is one line for each file that was not converted, in the order of the files,
  after the records and before at most one line that tells how the run ended. -/
  messages : ∃ closing, outcome.messages =
      logLines level batch.log ++ batch.outcome.filterMap errorLine ++ closing ∧
    (closing = [] ∨ closing = ["No XML files found"] ∨
      (∃ path : Path, closing = ["Results written to " ++ path.text]) ∨
      ∃ error : FileError, closing = ["Error writing output: " ++ error.message])
  /-- The data of all files that were converted is printed, or written to the output. -/
  data : HasResult batch.outcome → ∃ result layout,
    resultOf batch.outcome = some result ∧ Holds batch.outcome result ∧
    settings.jsonLayout host = .ok layout ∧ result.IsWritable host layout ∧
    (arguments.output = none → outcome.output = [result.toJson layout] ∧ outcome.files = files) ∧
    ∀ path, arguments.output = some path → outcome.output = [] ∧
      (files.CanWrite path → files.IsWritten outcome.files path
        (Encoding.utf8Bytes (result.toJson layout ++ "\n"))) ∧
      (¬ files.CanWrite path → outcome.files = files)
  /-- Otherwise nothing is printed or written. -/
  nothing : ¬ HasResult batch.outcome → outcome.output = [] ∧ outcome.files = files

/-! ## The result -/

theorem mem_filterMap_memberOf {reports : List FileReport} {key : String} {value : Value} :
    (key, value) ∈ reports.filterMap memberOf ↔
      ∃ report ∈ reports, ∃ data, report.path.text = key ∧ report.outcome = .ok data ∧
        data.toValue = value := by
  rw [List.mem_filterMap]
  refine exists_congr fun report => and_congr_right fun _ => ?_
  unfold memberOf
  cases report.outcome <;> simp

theorem hasResult_iff {reports : List FileReport} :
    HasResult reports ↔ reports ≠ [] ∧ ∃ result, resultOf reports = some result := by
  refine and_congr_right fun hreports => ?_
  match reports with
  | [] => contradiction
  | [report] =>
      obtain ⟨path, found⟩ := report
      cases found <;> simp [resultOf, memberOf, FileReport.isValid, Except.isOk, Except.toBool]
  | first :: second :: rest => simp [resultOf]

/-- The result holds the data of the files, if files under the same path have the same. -/
theorem holds_of_resultOf {reports : List FileReport} {result : Value}
    (hpaths : ∀ first ∈ reports, ∀ second ∈ reports, first.path.text = second.path.text →
      first = second)
    (h : resultOf reports = some result) : Holds reports result := by
  constructor
  · rintro report data rfl hdata
    simpa [resultOf, memberOf, hdata] using h.symm
  · intro hlength
    have hresult : result = (Object.ofMembers (reports.filterMap memberOf)).toValue := by
      match reports with
      | [] => exact (Option.some.inj h).symm
      | [report] => exact absurd rfl hlength
      | first :: second :: rest => exact (Option.some.inj h).symm
    refine ⟨_, hresult, fun key value => ?_⟩
    rw [Object.get?_ofMembers, mem_filterMap_memberOf]
    intro key value other hvalue hother
    obtain ⟨first, hfirst, data, rfl, hdata, rfl⟩ := mem_filterMap_memberOf.1 hvalue
    obtain ⟨second, hsecond, others, htext, hothers, rfl⟩ := mem_filterMap_memberOf.1 hother
    obtain rfl := hpaths second hsecond first hfirst htext
    rw [hdata] at hothers
    rw [Except.ok.inj hothers]

/-! ## Runs -/

section Runs

variable {host : Host} {files : FileTree} {level : LogLevel} {profile : Profile}
  {paths : List Path} {arguments : ConvertArguments} {batch : Logged (List FileReport)}
  {outcome : Outcome}

/-- The status of a run that has written all it had to write. -/
def statusOf (reports : List FileReport) : Nat := if reports.all FileReport.isValid then 0 else 1

theorem statusOf_eq_zero_iff {reports : List FileReport} :
    statusOf reports = 0 ↔ ∀ report ∈ reports, report.isValid = true := by
  rw [← List.all_eq_true, statusOf]
  split <;> simp_all

theorem statusOf_cases (reports : List FileReport) :
    statusOf reports = 0 ∨ statusOf reports = 1 := by
  unfold statusOf
  split
  · exact .inl rfl
  · exact .inr rfl

/-- The records that are shown and the lines on files that were not converted. -/
def linesOf (level : LogLevel) (batch : Logged (List FileReport)) : List String :=
  logLines level batch.log ++ batch.outcome.filterMap errorLine

/-- A run ends with its batch. -/
theorem runConvert_of_abort {reason : Abort}
    (h : convertAll { settings := profile.settings, host } profile.encoding files
      arguments.recursive paths = .error reason) :
    runConvert host files level profile paths arguments = .error reason := by
  unfold runConvert
  dsimp only
  rw [h]
  rfl

theorem exists_batch_of_runConvert
    (h : runConvert host files level profile paths arguments = .ok outcome) :
    ∃ batch, convertAll { settings := profile.settings, host } profile.encoding files
      arguments.recursive paths = .ok batch := by
  cases hbatch : convertAll { settings := profile.settings, host } profile.encoding files
      arguments.recursive paths with
  | error reason =>
      rw [runConvert_of_abort hbatch] at h
      contradiction
  | ok batch => exact ⟨batch, rfl⟩

/-- What a run does once its batch has come to an end. -/
theorem runConvert_eq
    (hbatch : convertAll { settings := profile.settings, host } profile.encoding files
      arguments.recursive paths = .ok batch) :
    runConvert host files level profile paths arguments =
      if batch.outcome = [] then
        .ok { status := 1, messages := ["No XML files found"], files }
      else
        match resultOf batch.outcome with
        | none => .ok { status := statusOf batch.outcome, messages := linesOf level batch, files }
        | some result =>
            (result.printWith host (profile.settings.jsonLayout host)).mapError .unwritable >>=
              deliver files arguments.output (statusOf batch.outcome) (linesOf level batch) := by
  unfold runConvert
  dsimp only
  rw [hbatch]
  show (if batch.outcome.isEmpty = true then _ else _) = _
  simp only [List.isEmpty_iff]
  rfl

theorem write_unnameable_iff {path : Path} {content : List UInt8} :
    (∃ other, files.write path content = .error ⟨.unnameable, other⟩) ↔
      files.locate path = .error .unnameable := by
  unfold FileTree.write
  cases files.locate path with
  | error fault => simp
  | ok names =>
      dsimp only
      split
      · simp
      · split <;> simp

/-- A result is delivered unless no file can have the path of the output. -/
theorem exists_deliver_iff {output : Option Path} {status : Nat} {messages : List String}
    {text : String} :
    (∃ outcome, deliver files output status messages text = .ok outcome) ↔
      ∀ path, output = some path → files.locate path ≠ .error .unnameable := by
  cases output with
  | none => simp [deliver]
  | some path =>
      simp only [Option.some.injEq, forall_eq', ne_eq,
        ← @write_unnameable_iff files path (Encoding.utf8Bytes (text ++ "\n"))]
      unfold deliver
      dsimp only
      split
      · next after h => simp [h]
      · next other h => simp [h]
      · next error hother h => simpa [h] using fun other => hother other

/-- The three ways to deliver a result: it is printed, written, or cannot be written. -/
theorem deliver_cases {output : Option Path} {status : Nat} {messages : List String}
    {text : String} (h : deliver files output status messages text = .ok outcome) :
    (output = none ∧ outcome = { status, output := [text], messages, files }) ∨
      (∃ path after, output = some path ∧
        files.write path (Encoding.utf8Bytes (text ++ "\n")) = .ok after ∧
        outcome = {
          status, messages := messages ++ ["Results written to " ++ path.text], files := after }) ∨
      ∃ (path : Path) (error : FileError), output = some path ∧ ¬ files.CanWrite path ∧
        outcome = {
          status := 1, messages := messages ++ ["Error writing output: " ++ error.message],
          files } := by
  unfold deliver at h
  split at h
  · exact .inl ⟨rfl, (Except.ok.inj h).symm⟩
  · next path =>
      split at h
      · next after hwrite => exact .inr (.inl ⟨path, after, rfl, hwrite, (Except.ok.inj h).symm⟩)
      · contradiction
      · next error _ hwrite =>
          refine .inr (.inr ⟨path, error, rfl, fun hcan => ?_, (Except.ok.inj h).symm⟩)
          obtain ⟨after, hafter⟩ := FileTree.write_eq_ok_iff.2 hcan
          rw [hafter] at hwrite
          contradiction

/-- A run has an outcome if its batch comes to an end and the result, if there is one, can be
delivered. -/
theorem exists_runConvert_iff :
    (∃ outcome, runConvert host files level profile paths arguments = .ok outcome) ↔
      ∃ batch, convertAll { settings := profile.settings, host } profile.encoding files
        arguments.recursive paths = .ok batch ∧
        (HasResult batch.outcome → CanDeliver host files profile.settings arguments batch.outcome)
        := by
  have hiff : ∀ batch, convertAll { settings := profile.settings, host } profile.encoding files
      arguments.recursive paths = .ok batch →
      ((∃ outcome, runConvert host files level profile paths arguments = .ok outcome) ↔
        (HasResult batch.outcome →
          CanDeliver host files profile.settings arguments batch.outcome)) := by
    intro batch hbatch
    rw [runConvert_eq hbatch, hasResult_iff]
    by_cases hempty : batch.outcome = []
    · simp [hempty]
    · rw [if_neg hempty]
      cases hresult : resultOf batch.outcome with
      | none => simp
      | some result =>
          have hdeliver : CanDeliver host files profile.settings arguments batch.outcome ↔
              (∃ layout, profile.settings.jsonLayout host = .ok layout ∧
                result.IsWritable host layout) ∧
              ∀ path, arguments.output = some path → files.locate path ≠ .error .unnameable :=
            ⟨fun h => ⟨h.written result hresult, h.output⟩, fun ⟨hwritten, houtput⟩ =>
              ⟨fun other hother => by
                rwa [← Option.some.inj (hresult.symm.trans hother)], houtput⟩⟩
          rw [hdeliver]
          have hdelivered := fun text => @exists_deliver_iff files arguments.output
            (statusOf batch.outcome) (linesOf level batch) text
          simp only [bind_eq_ok_iff, mapError_eq_ok_iff, Value.printWith_eq_ok_iff]
          constructor
          · rintro ⟨outcome, text, ⟨layout, hlayout, hwritable, rfl⟩, h⟩ -
            exact ⟨⟨layout, hlayout, hwritable⟩, (hdelivered _).1 ⟨outcome, h⟩⟩
          · intro h
            obtain ⟨⟨layout, hlayout, hwritable⟩, houtput⟩ := h ⟨hempty, result, rfl⟩
            obtain ⟨outcome, h⟩ := (hdelivered _).2 houtput
            exact ⟨outcome, _, ⟨layout, hlayout, hwritable, rfl⟩, h⟩
  constructor
  · rintro ⟨outcome, houtcome⟩
    obtain ⟨batch, hbatch⟩ := exists_batch_of_runConvert houtcome
    exact ⟨batch, hbatch, (hiff batch hbatch).1 ⟨outcome, houtcome⟩⟩
  · rintro ⟨batch, hbatch, h⟩
    exact (hiff batch hbatch).2 h

/-- What a run that delivers a result tells about its files. -/
theorem delivers_of_deliver {result : Value} {layout : JsonLayout}
    (hresult : HasResult batch.outcome) (hsome : resultOf batch.outcome = some result)
    (hholds : Holds batch.outcome result)
    (hlayout : profile.settings.jsonLayout host = .ok layout)
    (hwritable : result.IsWritable host layout)
    (h : deliver files arguments.output (statusOf batch.outcome) (linesOf level batch)
      (result.toJson layout) = .ok outcome) :
    Delivers host files level profile.settings arguments batch outcome := by
  rcases deliver_cases h with
    ⟨houtput, rfl⟩ | ⟨path, after, houtput, hwrite, rfl⟩ | ⟨path, error, houtput, hcan, rfl⟩
  · exact {
      status := statusOf_cases _
      succeeds := by simp [statusOf_eq_zero_iff, hresult.1, houtput]
      messages := ⟨[], (List.append_nil _).symm, .inl rfl⟩
      data := fun _ => ⟨result, layout, hsome, hholds, hlayout, hwritable, fun _ => ⟨rfl, rfl⟩,
        by simp [houtput]⟩
      nothing := fun h => absurd hresult h }
  · have hcan : files.CanWrite path := FileTree.write_eq_ok_iff.1 ⟨after, hwrite⟩
    exact {
      status := statusOf_cases _
      succeeds := by simp [statusOf_eq_zero_iff, hresult.1, houtput, hcan]
      messages := ⟨_, rfl, .inr (.inr (.inl ⟨path, rfl⟩))⟩
      data := fun _ => ⟨result, layout, hsome, hholds, hlayout, hwritable, by simp [houtput], by
        intro other hother
        obtain rfl := Option.some.inj (houtput.symm.trans hother)
        exact ⟨rfl, fun _ => FileTree.isWritten_of_write hwrite, absurd hcan⟩⟩
      nothing := fun h => absurd hresult h }
  · exact {
      status := .inr rfl
      succeeds := by simp [houtput, hcan]
      messages := ⟨_, rfl, .inr (.inr (.inr ⟨error, rfl⟩))⟩
      data := fun _ => ⟨result, layout, hsome, hholds, hlayout, hwritable, by simp [houtput], by
        intro other hother
        obtain rfl := Option.some.inj (houtput.symm.trans hother)
        exact ⟨rfl, fun hwritten => absurd hwritten hcan, fun _ => rfl⟩⟩
      nothing := fun h => absurd hresult h }

theorem HasResult.of_isValid {reports : List FileReport} (hreports : reports ≠ [])
    (hvalid : ∀ report ∈ reports, report.isValid = true) : HasResult reports :=
  ⟨hreports, fun report h => hvalid report (by simp [h])⟩

/-- Without a result nothing is delivered, and the run fails. -/
theorem delivers_of_not_hasResult (hresult : ¬ HasResult batch.outcome) {messages : List String}
    {closing : List String} (hmessages : messages = linesOf level batch ++ closing)
    (hclosing : closing = [] ∨ closing = ["No XML files found"]) :
    Delivers host files level profile.settings arguments batch
      { status := 1, messages, files } where
  status := .inr rfl
  succeeds := by
    refine ⟨fun h => absurd h Nat.one_ne_zero, ?_⟩
    rintro ⟨hreports, hvalid, -⟩
    exact absurd (HasResult.of_isValid hreports hvalid) hresult
  messages := ⟨closing, hmessages, hclosing.elim .inl fun h => .inr (.inl h)⟩
  data := fun h => absurd h hresult
  nothing := fun _ => ⟨rfl, rfl⟩

/-- Every run tells what came of its files and delivers their data. -/
theorem delivers_of_runConvert
    (hbatch : convertAll { settings := profile.settings, host } profile.encoding files
      arguments.recursive paths = .ok batch)
    (hpaths : ∀ first ∈ batch.outcome, ∀ second ∈ batch.outcome,
      first.path.text = second.path.text → first = second)
    (h : runConvert host files level profile paths arguments = .ok outcome) :
    Delivers host files level profile.settings arguments batch outcome := by
  rw [runConvert_eq hbatch] at h
  split at h
  · next hempty =>
      obtain rfl := Except.ok.inj h
      obtain ⟨documents, records, -, -, rfl⟩ := convertAll_eq_ok_iff.1 hbatch
      obtain rfl : records = [] := List.map_eq_nil_iff.1 hempty
      exact delivers_of_not_hasResult (fun h => h.1 rfl) rfl (.inr rfl)
  · next hempty =>
      split at h
      · next hnone =>
          obtain rfl := Except.ok.inj h
          have hresult : ¬ HasResult batch.outcome := by simp [hasResult_iff, hnone]
          have hstatus : statusOf batch.outcome = 1 := by
            refine (statusOf_cases _).resolve_left fun hzero => hresult ?_
            exact HasResult.of_isValid hempty (statusOf_eq_zero_iff.1 hzero)
          rw [hstatus]
          exact delivers_of_not_hasResult hresult (List.append_nil _).symm (.inl rfl)
      · next result hresult =>
          obtain ⟨text, hprinted, hdeliver⟩ := bind_eq_ok_iff.1 h
          obtain ⟨layout, hlayout, hwritable, rfl⟩ :=
            Value.printWith_eq_ok_iff.1 (mapError_eq_ok_iff.1 hprinted)
          exact delivers_of_deliver (hasResult_iff.2 ⟨hempty, result, hresult⟩) hresult
            (holds_of_resultOf hpaths hresult) hlayout hwritable hdeliver

end Runs

/-- In a proper tree, reports under the same text are the same. -/
theorem eq_of_text_eq {converter : Converter} {encoding : Value} {files : FileTree}
    {recursive : Bool} {texts : List String} (hfiles : files.IsProper)
    {batch : Logged (List FileReport)}
    (h : convertAll converter encoding files recursive (texts.map Path.ofText) = .ok batch) :
    ∀ first ∈ batch.outcome, ∀ second ∈ batch.outcome, first.path.text = second.path.text →
      first = second := by
  obtain ⟨documents, records, hdocuments, hrecords, rfl⟩ := convertAll_eq_ok_iff.1 h
  have hreport : ∀ report ∈ (gather records).outcome, report.path.IsProper ∧
      ∃ record, convertOne converter encoding files report.path = .ok record ∧
        report = record.outcome := by
    intro report hmem
    obtain ⟨record, hrecord, rfl⟩ := List.mem_map.1 hmem
    obtain ⟨document, hdocument, hconverted⟩ := exists_result_of_mem hrecords.flip hrecord
    obtain ⟨path, hpath, own, hown, hfound⟩ := exists_mem_of_collect hdocuments hdocument
    obtain ⟨text, -, rfl⟩ := List.mem_map.1 hpath
    rw [path_of_convertOne hconverted]
    exact ⟨isProper_of_documentsAt hfiles (Path.isProper_ofText text) hown document hfound,
      record, hconverted, rfl⟩
  intro first hfirst second hsecond htext
  obtain ⟨hproper, record, hrecord, hfirst⟩ := hreport first hfirst
  obtain ⟨hother, other, hsame, hsecond⟩ := hreport second hsecond
  rw [hproper.eq_of_text hother htext, hsame] at hrecord
  rw [hfirst, hsecond, Except.ok.inj hrecord]

end CommandLine

/-! ## A file with a whole number that is too long -/

/-- The bytes of ASCII characters. -/
def Encoding.asciiBytes (text : List Char) : List UInt8 :=
  text.map fun c => UInt8.ofNat c.toNat

theorem Encoding.decodeFrom_cons {encoding : Encoding} {byte : UInt8} {rest : List UInt8} {c : Char}
    (h : encoding.first byte rest = .ok (c, 0)) (start : Nat) (before : List Char) :
    encoding.decodeFrom start before (byte :: rest) =
      encoding.decodeFrom (start + 1) (c :: before) rest := by
  rw [decodeFrom, h]
  rfl

theorem Encoding.decodeFrom_asciiBytes {text : List Char} (h : ∀ c ∈ text, c.toNat < 0x80)
    (start : Nat) (before : List Char) :
    Encoding.utf8.decodeFrom start before (asciiBytes text) = .ok (before.reverse ++ text) := by
  induction text generalizing start before with
  | nil => rw [asciiBytes, List.map_nil, decodeFrom, List.append_nil]
  | cons c rest ih =>
      obtain ⟨hc, hrest⟩ := List.forall_mem_cons.1 h
      have hbyte : (UInt8.ofNat c.toNat).toNat = c.toNat :=
        UInt8.toNat_ofNat_of_lt (Nat.lt_trans hc (by decide))
      have hfirst : Encoding.utf8.first (UInt8.ofNat c.toNat) (asciiBytes rest) = .ok (c, 0) := by
        show utf8First _ _ = _
        rw [utf8First, hbyte, utf8Start?, if_pos hc]
        simp only [utf8Rest, Char.ofNat_toNat]
      refine (decodeFrom_cons hfirst start before).trans ?_
      rw [ih hrest, List.reverse_cons, List.append_assoc, List.singleton_append]

theorem Encoding.decode_asciiBytes {text : List Char} (h : ∀ c ∈ text, c.toNat < 0x80) :
    Encoding.utf8.decode (asciiBytes text) = .ok (String.ofList text) := by
  have hmark : Encoding.utf8.withoutMark (asciiBytes text) = asciiBytes text := if_neg (by simp)
  rw [decode, hmark, decodeFrom_asciiBytes h]
  rfl

/-- A document with a whole number of as many digits. -/
def onesDocument (count : Nat) : List Char :=
  '<' :: 'a' :: '>' :: (List.replicate count '1' ++ ['<', '/', 'a', '>'])

theorem mem_onesDocument {count : Nat} {c : Char} (h : c ∈ onesDocument count) :
    c ∈ ['<', 'a', '>', '1', '/'] := by
  simp only [onesDocument, List.mem_cons, List.mem_append, List.mem_replicate, List.not_mem_nil,
    or_false] at h ⊢
  tauto

theorem isLongInteger_ones {count : Nat} (h : Numeral.maxDigits < count) :
    IsLongInteger (String.ofList (List.replicate count '1')) := by
  refine ⟨[], List.replicate count '1', String.toList_ofList, .inl rfl, ?_, ?_, by simpa using h⟩
  · intro c hc
    rw [List.eq_of_mem_replicate hc]
    decide
  · rw [List.head?_replicate]
    split <;> simp

theorem renders_ones {count : Nat} (h : 0 < count) :
    Renders .document [.element "a" [] [.text (String.ofList (List.replicate count '1'))]]
      (onesDocument count) := by
  have hnothing : Blanks [] := by decide
  have htext : IsText (String.ofList (List.replicate count '1')) := by
    refine ⟨by simp [Nat.ne_of_gt h], ?_, ?_⟩ <;> rw [String.toList_ofList] <;> intro c hc
    · rw [List.eq_of_mem_replicate (List.mem_of_mem_head? hc)]
      decide
    · rw [List.eq_of_mem_replicate (List.mem_of_getLast? hc)]
      decide
  have hcontent : Renders .element [.text (String.ofList (List.replicate count '1'))]
      ((List.replicate count '1') ++ []) := by
    refine .text htext ?_ (by simp) .nil
    rw [String.toList_ofList]
    exact .raw fun c hc => by rw [List.eq_of_mem_replicate hc]; decide
  rw [List.append_nil] at hcontent
  exact .element hnothing hnothing hnothing hnothing (by decide) (by decide) .nil hcontent .nil

/-- An element that stands in no other is never too deep by default. -/
theorem not_forbids_first (level : Nat) (hlow : 0 < level) (hhigh : level ≤ 1) :
    ¬ ({} : Converter).Forbids ({} : Converter).ceiling level := by
  obtain rfl : level = 1 := by omega
  simp [Converter.Forbids]
  decide

/-- A document with too long a number cannot be converted. -/
theorem outcome_ones {count : Nat} (h : Numeral.maxDigits < count) :
    (({} : Converter).convert (String.ofList (onesDocument count))).outcome =
      .error .integerTooLong := by
  have hrenders := renders_ones (Nat.lt_of_le_of_lt (Nat.zero_le _) h)
  rw [← String.toList_ofList (l := onesDocument count)] at hrenders
  obtain ⟨hfault, hspells⟩ := hrenders.spells
  refine (Converter.outcome_of_spells rfl hfault hspells not_forbids_first).2 ?_
  have hlong := isLongInteger_ones h
  have hne : String.ofList (List.replicate count '1') ≠ "" := by
    intro hempty
    have hlength := hlong.length
    rw [hempty] at hlength
    exact absurd hlength (by decide)
  refine ⟨_, ?_, Converter.not_reads_of_isLongInteger rfl hlong⟩
  show _ ∈ [] ++ (textScalars _ ++ []) ++ []
  rw [textScalars, if_neg hne]
  exact List.mem_singleton.2 rfl

namespace CommandLine

theorem readText_asciiBytes {host : Host} {files : FileTree} {path : Path} {text : List Char}
    (h : files.read path = .ok (Encoding.asciiBytes text)) (htext : ∀ c ∈ text, c.toNat < 0x80)
    (hreturn : '\r' ∉ text) :
    files.readText host path (.string "utf-8") = .ok (String.ofList text) := by
  have hname : FileTree.encodingName (.string "utf-8") = .ok "utf-8" := by decide
  have hcoding : Encoding.ofName? "utf-8" = some .utf8 := by decide
  unfold FileTree.readText FileTree.decode
  rw [hname, h]
  simp only [bind, Except.bind, Except.mapError, hcoding, Encoding.decode_asciiBytes htext,
    String.toList_ofList, Text.withLineFeeds_of_not_mem hreturn]
  rfl

/-- A file with the given bytes, and one that is converted. -/
def filesWith (content : List UInt8) : FileTree where
  entries := [(["a.xml"], .file content),
    (["b.xml"], .file (Encoding.asciiBytes ['<', 'b', '/', '>']))]

theorem find_filesWith (content : List UInt8) :
    (filesWith content).find (Path.ofText "a.xml") = .ok (some (["a.xml"], .file content)) := rfl

/-- A file with a number of too many digits, and one that is converted. -/
def twoFiles : FileTree := filesWith (Encoding.asciiBytes (onesDocument 4301))

theorem find_twoFiles : twoFiles.find (Path.ofText "a.xml") =
    .ok (some (["a.xml"], .file (Encoding.asciiBytes (onesDocument 4301)))) :=
  find_filesWith _

theorem isProper_twoFiles : twoFiles.IsProper := by decide

theorem isKnownEncoding_utf8 (host : Host) : IsKnownEncoding host (.string "utf-8") :=
  ⟨"utf-8", by decide, .inl (by decide)⟩

theorem convertOne_a :
    convertOne {} (.string "utf-8") twoFiles (Path.ofText "a.xml") = .error .integerTooLong := by
  have htext : twoFiles.readText {} (Path.ofText "a.xml") (.string "utf-8") =
      .ok (String.ofList (onesDocument 4301)) := by
    refine readText_asciiBytes rfl (fun c hc => ?_) fun hc => ?_
    · have hascii : ∀ c ∈ ['<', 'a', '>', '1', '/'], c.toNat < 0x80 := by simp
      exact hascii c (mem_onesDocument hc)
    · exact absurd (mem_onesDocument hc) (by decide)
  have hconvert := @convertOne_of_text {} _ _ _ _ htext
  rwa [outcome_ones (by decide)] at hconvert

theorem runConvert_b : ∃ outcome,
    runConvert {} twoFiles .warning {} (["b.xml"].map Path.ofText) {} = .ok outcome ∧
      outcome.status = 0 := by
  have hstatus : (runConvert {} twoFiles .warning {} (["b.xml"].map Path.ofText) {}).map
      Outcome.status = .ok 0 := by
    decide +kernel
  exact exists_of_map_ok hstatus

/-! ## The command as a whole -/

/-- Every file of a batch is converted as if it were alone, and the command that converts
delivers what came of them.  With a known encoding the batch comes to an end unless a path
cannot be looked through, no file can have the path of a document, the codec of the encoding
fails on more than single bytes of a document, or a whole number in a document has too many
digits.  The command has an outcome whenever its batch comes to an end, unless the result, if
there is one, has no layout, has more levels than can be written, makes too long a text, or has
an output that no file can be. -/
theorem apart_and_delivers {host : Host} {files : FileTree} {profile : Profile}
    (hfiles : files.IsProper) (hencoding : IsKnownEncoding host profile.encoding)
    (level : LogLevel) (texts : List String) (arguments : ConvertArguments) :
    Apart { settings := profile.settings, host } profile.encoding files arguments.recursive
      (texts.map Path.ofText) ∧
    ((∃ outcome, runConvert host files level profile (texts.map Path.ofText) arguments =
        .ok outcome) ↔
      ∃ batch, convertAll { settings := profile.settings, host } profile.encoding files
        arguments.recursive (texts.map Path.ofText) = .ok batch ∧
        (HasResult batch.outcome →
          CanDeliver host files profile.settings arguments batch.outcome)) ∧
    ∀ outcome, runConvert host files level profile (texts.map Path.ofText) arguments =
        .ok outcome →
      ∃ batch, convertAll { settings := profile.settings, host } profile.encoding files
          arguments.recursive (texts.map Path.ofText) = .ok batch ∧
        Delivers host files level profile.settings arguments batch outcome := by
  refine ⟨apart hfiles hencoding _ _, exists_runConvert_iff, fun outcome h => ?_⟩
  obtain ⟨batch, hbatch⟩ := exists_batch_of_runConvert h
  exact ⟨batch, hbatch, delivers_of_runConvert hbatch (eq_of_text_eq hfiles hbatch) h⟩

theorem apart_and_delivers_twoFiles :
    twoFiles.IsProper ∧ IsKnownEncoding {} ({} : Profile).encoding ∧
      Apart {} (.string "utf-8") twoFiles false (["a.xml", "b.xml"].map Path.ofText) ∧
      ∃ outcome batch,
        runConvert {} twoFiles .warning {} (["b.xml"].map Path.ofText) {} = .ok outcome ∧
        Delivers {} twoFiles .warning {} {} batch outcome := by
  have hfiles := isProper_twoFiles
  have hencoding : IsKnownEncoding {} ({} : Profile).encoding := isKnownEncoding_utf8 {}
  obtain ⟨outcome, h, -⟩ := runConvert_b
  obtain ⟨batch, -, hdelivers⟩ :=
    (apart_and_delivers hfiles hencoding .warning ["b.xml"] {}).2.2 outcome h
  exact ⟨hfiles, hencoding,
    (apart_and_delivers hfiles hencoding .warning ["a.xml", "b.xml"] {}).1,
    outcome, batch, h, hdelivers⟩

/-- A whole number with too many digits in one file keeps the command from telling anything,
though the other file is converted if it stands alone. -/
theorem long_integer_aborts_batch :
    twoFiles.IsProper ∧ IsKnownEncoding {} ({} : Profile).encoding ∧
      runConvert {} twoFiles .warning {} (["a.xml", "b.xml"].map Path.ofText) {} =
        .error .integerTooLong ∧
      ∃ outcome, runConvert {} twoFiles .warning {} (["b.xml"].map Path.ofText) {} =
          .ok outcome ∧ outcome.status = 0 := by
  refine ⟨isProper_twoFiles, isKnownEncoding_utf8 {}, runConvert_of_abort ?_, runConvert_b⟩
  have hpath : convertPath {} (.string "utf-8") twoFiles false (Path.ofText "a.xml") =
      .error .integerTooLong := by
    rw [convertPath_of_other find_twoFiles (by simp), List.mapM_cons, convertOne_a]
    rfl
  show convertAll {} (.string "utf-8") twoFiles false _ = _
  rw [convertAll, collect, List.map_cons, List.mapM_cons, hpath]
  rfl

end CommandLine

end XmlToJson
