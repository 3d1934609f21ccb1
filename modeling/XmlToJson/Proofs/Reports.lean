import XmlToJson.Proofs.Effects

/-!
# What a conversion reports

A conversion reports how it ended in its records: with one record at the level of information if it
has a result, and with one warning, which gives the error and its kind, if it has none.
`Logged.Reports` says that a conversion does one of the two and not the other.

Two documents are not reported so.  One that is longer than its limit is refused before anything is
written, and a whole number with too many digits ends the conversion with a failure that is no
conversion error and that no record tells.  Every other conversion is reported
(`convert_reports_iff`).

## Strategy

* **The records in between.**  All records between the first and the last are those of declarations
  that are skipped (`Builder.recorded_of_follow`).  They are of the least level
  (`level_openingRecords`), there is one for each declaration that is counted
  (`countP_openingRecords`), and none of them is at the level of the last record
  (`level_ne_of_mem`).  So what is counted in the records comes down to the one at the end.
* **The record at the end.**  `exists_built` says what comes of a document that is not too long,
  with all records but the last one, and `conclude` adds that.  If something was built it is the
  record of a result (`reportsResult_conclude`), and for a conversion error it is the warning
  (`reportsFailure_conclude`).  The failure that is no conversion error adds none
  (`not_reports_of_integerTooLong`).
* **Documents that are too long** have no records at all (`convert_eq_tooLong`), and nothing is
  reported by nothing (`not_reports_of_empty`).

A document of four characters under a limit of one shows the first exception
(`tooLong_not_reported`).
-/

namespace XmlToJson

/-- Whether a record has the given level and message. -/
def LogRecord.tells (level : LogLevel) (message : String) (record : LogRecord) : Bool :=
  record.level == level && record.message == message

namespace Logged

/-- Whether a conversion has a result and reports it: with a single record of information,
with a record for each declaration that it counts, and without a warning. -/
def ReportsResult (logged : Logged (Except Failure Conversion)) : Prop :=
  ∃ found completed, logged.outcome = .ok found ∧
    logged.log.filter (·.level == .info) = [completed] ∧
    completed.message = "XML to JSON conversion completed" ∧
    logged.log.countP (·.tells .debug "Skipped markup declaration") = found.metrics.declarations ∧
    ∀ record ∈ logged.log, record.level ≠ .warning

/-- Whether a conversion ends with a conversion error and reports it: with a single warning
that gives the text of the error and its kind, and without a record of information. -/
def ReportsFailure (logged : Logged (Except Failure Conversion)) : Prop :=
  ∃ error failed, logged.outcome = .error (.refused error) ∧
    logged.log.filter (·.level == .warning) = [failed] ∧
    failed.message = "XML to JSON conversion failed" ∧
    failed.fields.get? "error" = some (.string error.message) ∧
    failed.fields.get? "error_type" = some (.string error.kindName) ∧
    ∀ record ∈ logged.log, record.level ≠ .info

/-- Whether a conversion reports a result or a failure, and not both. -/
def Reports (logged : Logged (Except Failure Conversion)) : Prop :=
  (logged.ReportsResult ∧ ¬ logged.ReportsFailure) ∨
    (logged.ReportsFailure ∧ ¬ logged.ReportsResult)

variable {logged : Logged (Except Failure Conversion)}

theorem ReportsResult.reports (h : logged.ReportsResult) : logged.Reports := by
  refine .inl ⟨h, ?_⟩
  obtain ⟨found, completed, hfound, -⟩ := h
  rintro ⟨error, failed, herror, -⟩
  rw [hfound] at herror
  contradiction

theorem ReportsFailure.reports (h : logged.ReportsFailure) : logged.Reports := by
  refine .inr ⟨h, ?_⟩
  obtain ⟨error, failed, herror, -⟩ := h
  rintro ⟨found, completed, hfound, -⟩
  rw [hfound] at herror
  contradiction

end Logged

/-! ## The records between the first and the last -/

section Records

variable (converter : Converter) (length count : Nat)

/-- The records of a conversion that has skipped some declarations, before its last one. -/
def Converter.openingRecords : List LogRecord :=
  converter.startedRecord length :: List.replicate count converter.skippedRecord

theorem level_openingRecords : ∀ record ∈ converter.openingRecords length count,
    record.level = .debug := by
  intro record hmem
  rcases List.mem_cons.1 hmem with rfl | hskipped
  · rfl
  · rw [List.eq_of_mem_replicate hskipped]
    rfl

theorem countP_openingRecords :
    (converter.openingRecords length count).countP (·.tells .debug "Skipped markup declaration") =
      count := by
  have hstarted : (converter.startedRecord length).tells .debug "Skipped markup declaration" =
      false := rfl
  have hskipped : converter.skippedRecord.tells .debug "Skipped markup declaration" = true := rfl
  rw [Converter.openingRecords, List.countP_cons, List.countP_replicate, hstarted, hskipped]
  rfl

/-- Of a level above the first records only the last one is left. -/
theorem filter_openingRecords {level : LogLevel} (hlevel : level ≠ .debug) {last : LogRecord}
    (hlast : last.level = level) :
    (converter.openingRecords length count ++ [last]).filter (·.level == level) = [last] := by
  have hnone : (converter.openingRecords length count).filter (·.level == level) = [] := by
    refine List.filter_eq_nil_iff.2 fun record hmem => ?_
    rw [level_openingRecords converter length count record hmem, beq_iff_eq]
    exact hlevel.symm
  have hlast : [last].filter (·.level == level) = [last] :=
    List.filter_eq_self.2 fun record hmem => by
      rw [List.mem_singleton.1 hmem, hlast, beq_self_eq_true]
  rw [List.filter_append, hnone, hlast]
  rfl

/-- Whatever the last record is, no other has a level above the first ones. -/
theorem level_ne_of_mem {level : LogLevel} (hlevel : level ≠ .debug) {last : LogRecord}
    (hlast : last.level ≠ level) :
    ∀ record ∈ converter.openingRecords length count ++ [last], record.level ≠ level := by
  intro record hmem
  rcases List.mem_append.1 hmem with hopening | hlastMem
  · rw [level_openingRecords converter length count record hopening]
    exact hlevel.symm
  · rw [List.mem_singleton.1 hlastMem]
    exact hlast

end Records

/-! ## Conversions -/

namespace Converter

variable {converter : Converter} {text : String}

/-- What comes of a document that is not too long, with all records but the last one. -/
theorem exists_built (hlength : converter.exceededLimit? text = none) :
    ∃ built : Built, ∃ count, converter.convert text = converter.conclude built ∧
      built.log = converter.openingRecords text.length count ∧
      (∀ root metrics, built.outcome = .ok (root, metrics) → metrics.declarations = count) ∧
      ∀ failure, built.outcome = .error failure →
        (∃ error, failure = .refused (.malformed error)) ∨
          (∃ limit tag position, failure = .refused (.tooDeep limit tag position)) ∨
          failure = .integerTooLong ∧
            ∃ entry ∈ (Trace.ofText text).entries, converter.Overflows entry.event := by
  obtain ⟨count, hlog, hcount⟩ := @Builder.recorded_of_follow converter converter.ceiling
    (Trace.ofText text).fault (Trace.ofText text).entries
    (converter.machine text).builder
  refine ⟨_, count, convert_eq_conclude hlength, hlog, ?_, fun failure h =>
    Builder.failure_of_follow h⟩
  intro root metrics h
  rw [hcount root metrics h]
  exact Nat.zero_add count

theorem reportsResult_conclude {built : Built} {count : Nat}
    (hlog : built.log = converter.openingRecords text.length count) {root : Object}
    {metrics : Metrics} (houtcome : built.outcome = .ok (root, metrics))
    (hcount : metrics.declarations = count) : (converter.conclude built).ReportsResult := by
  have hconclude : converter.conclude built =
      ⟨.ok ⟨root, metrics, converter.correlationId⟩,
        converter.openingRecords text.length count ++ [converter.completedRecord metrics]⟩ := by
    rw [conclude, houtcome, ← hlog]
  rw [hconclude]
  refine ⟨_, converter.completedRecord metrics, rfl,
    filter_openingRecords converter _ count (by decide) rfl, rfl, ?_,
    level_ne_of_mem converter _ count (by decide) LogLevel.noConfusion⟩
  have hcompleted : (converter.completedRecord metrics).tells .debug
      "Skipped markup declaration" = false := rfl
  rw [List.countP_append, countP_openingRecords, List.countP_singleton, hcompleted, hcount]
  rfl

theorem reportsFailure_conclude {built : Built} {count : Nat}
    (hlog : built.log = converter.openingRecords text.length count) {error : ConversionError}
    (houtcome : built.outcome = .error (.refused error)) :
    (converter.conclude built).ReportsFailure := by
  have hconclude : converter.conclude built =
      ⟨.error (.refused error),
        converter.openingRecords text.length count ++ [converter.failedRecord error]⟩ := by
    rw [conclude, houtcome, ← hlog]
  rw [hconclude]
  refine ⟨error, converter.failedRecord error, rfl,
    filter_openingRecords converter _ count (by decide) rfl, rfl, ?_, ?_,
    level_ne_of_mem converter _ count (by decide) LogLevel.noConfusion⟩
  · simp [failedRecord, Logger.record]
  · simp [failedRecord, Logger.record]

theorem not_reports_of_integerTooLong {logged : Logged (Except Failure Conversion)}
    (h : logged.outcome = .error .integerTooLong) : ¬ logged.Reports := by
  rintro (⟨⟨found, completed, hfound, -⟩, -⟩ | ⟨⟨error, failed, herror, -⟩, -⟩)
  · simp [h] at hfound
  · simp [h] at herror

/-- Nothing is written of a document that is too long. -/
theorem convert_eq_tooLong {limit : Number} (hlength : converter.exceededLimit? text = some limit) :
    converter.convert text = ⟨.error (.refused (.tooLong text.length limit)), []⟩ := by
  rw [convert, hlength]

theorem not_reports_of_empty {logged : Logged (Except Failure Conversion)}
    (h : logged.log = []) : ¬ logged.Reports := by
  rintro (⟨⟨found, completed, -, hinfo, -⟩, -⟩ | ⟨⟨error, failed, -, hwarning, -⟩, -⟩)
  · simp [h] at hinfo
  · simp [h] at hwarning

theorem reports_conclude_iff {built : Built} {count : Nat}
    (hlog : built.log = converter.openingRecords text.length count)
    (hcount : ∀ root metrics, built.outcome = .ok (root, metrics) →
      metrics.declarations = count) :
    (converter.conclude built).Reports ↔
      (converter.conclude built).outcome ≠ .error .integerTooLong := by
  cases houtcome : built.outcome with
  | ok found =>
      obtain ⟨root, metrics⟩ := found
      have hreports := reportsResult_conclude hlog houtcome (hcount root metrics houtcome)
      refine ⟨fun _ => ?_, fun _ => hreports.reports⟩
      rw [outcome_conclude, houtcome]
      simp [Except.map]
  | error failure =>
      cases failure with
      | refused error =>
          refine ⟨fun _ => ?_, fun _ => (reportsFailure_conclude hlog houtcome).reports⟩
          rw [outcome_conclude, houtcome]
          simp [Except.map]
      | integerTooLong =>
          have hend : (converter.conclude built).outcome = .error .integerTooLong := by
            rw [outcome_conclude, houtcome]
            rfl
          exact ⟨fun h => absurd h (not_reports_of_integerTooLong hend), fun h => absurd hend h⟩

theorem integerTooLong_of_conclude {built : Built}
    (h : (converter.conclude built).outcome = .error .integerTooLong) :
    built.outcome = .error .integerTooLong := by
  rw [outcome_conclude] at h
  cases hbuilt : built.outcome with
  | ok found => simp [hbuilt, Except.map] at h
  | error failure => simpa [hbuilt, Except.map] using h

/-- A conversion is reported unless the document is too long or a whole number in it has too
many digits.  Of a document that is too long nothing is written; a number with too many
digits is the text of an event and has to be read, and then nothing but the records of
skipped markup is written. -/
theorem convert_reports_iff (converter : Converter) (text : String) :
    ((converter.convert text).Reports ↔
      converter.exceededLimit? text = none ∧
        (converter.convert text).outcome ≠ .error .integerTooLong) ∧
    (∀ limit, converter.exceededLimit? text = some limit →
      converter.convert text = ⟨.error (.refused (.tooLong text.length limit)), []⟩) ∧
    ((converter.convert text).outcome = .error .integerTooLong →
      (∃ entry ∈ (Trace.ofText text).entries, converter.Overflows entry.event) ∧
        ∀ record ∈ (converter.convert text).log, record.level = .debug) := by
  cases hlength : converter.exceededLimit? text with
  | some limit =>
      have hconvert := convert_eq_tooLong hlength
      refine ⟨⟨?_, fun h => absurd h.1 (by simp)⟩, ?_, ?_⟩
      · intro hreports
        exact absurd hreports (not_reports_of_empty (by rw [hconvert]))
      · intro found hfound
        rw [← Option.some.inj hfound]
        exact hconvert
      · intro h
        simp [hconvert] at h
  | none =>
      obtain ⟨built, count, hconvert, hlog, hcount, hfailure⟩ := exists_built hlength
      rw [hconvert]
      refine ⟨?_, by simp, ?_⟩
      · rw [reports_conclude_iff hlog hcount]
        exact ⟨fun h => ⟨rfl, h⟩, fun h => h.2⟩
      · intro hend
        have houtcome := integerTooLong_of_conclude hend
        refine ⟨?_, ?_⟩
        · rcases hfailure _ houtcome with ⟨error, h⟩ | ⟨limit, tag, position, h⟩ | ⟨-, hoverflows⟩
          · contradiction
          · contradiction
          · exact hoverflows
        · rw [conclude, houtcome, hlog]
          exact level_openingRecords converter text.length count

/-- A document of four characters is refused by a limit of one, and no warning tells. -/
theorem tooLong_not_reported :
    ¬ (({ settings := { maxInputLength := some (.integer 1) } } : Converter).convert
      "<a/>").Reports := by
  refine not_reports_of_empty ?_
  rw [@convert_eq_tooLong _ _ (.integer 1) (by decide)]

end Converter

end XmlToJson
