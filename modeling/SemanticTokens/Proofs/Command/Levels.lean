import SemanticTokens.Proofs.Collection.Log
import SemanticTokens.Proofs.Command.Reports
import SemanticTokens.Proofs.Command.Words

/-!
# What the log level changes

A run at some level of detail is the run at the most detailed level, but for the
records that do not pass.  Neither the exit code nor the output depends on which
they are.

A run that fails before its names are read logs nothing.  Any other run logs how
many names it read and then what it collected, and if it succeeds, one more
record at the end.  That record alone tells the time that the run took.
-/

namespace SemanticTokens

/-- How a run tells the time that it took: not at all if it fails, else in the
last record of its log. -/
inductive Outcome.TimesEnd : Outcome → Prop
  | failed {output : String} {log : List LogRecord} {failure : Failure}
      (timeless : ∀ record ∈ log, record.IsTimeless) :
      TimesEnd ⟨output, log, some failure⟩
  | succeeded {output : String} {log : List LogRecord} {tokens : Nat}
      (timeless : ∀ record ∈ log, record.IsTimeless) :
      TimesEnd ⟨output, log ++ [.encoded tokens], none⟩

namespace Outcome.TimesEnd

variable {outcome : Outcome} {record : LogRecord}

theorem isTimeless_of_mem_dropLast
    (timesEnd : outcome.TimesEnd) (member : record ∈ outcome.log.dropLast) :
    record.IsTimeless := by
  cases timesEnd with
  | @failed _ log _ timeless =>
      exact timeless record (List.dropLast_subset log member)
  | succeeded timeless =>
      rw [List.dropLast_concat] at member
      exact timeless record member

theorem isTimeless_of_failure
    (timesEnd : outcome.TimesEnd) (failed : outcome.failure? ≠ none)
    (member : record ∈ outcome.log) :
    record.IsTimeless := by
  cases timesEnd with
  | failed timeless =>
      exact timeless record member
  | succeeded _ =>
      exact (failed rfl).elim

end Outcome.TimesEnd

namespace EncodeTask

theorem isTimeless_of_mem_workLog
    {task : EncodeTask} {records : List NameRecord} {record : LogRecord}
    (member : record ∈ task.workLog records) :
    record.IsTimeless := by
  rcases List.mem_cons.mp member with rfl | ofCollection
  · exact fun _ _ => rfl
  · exact Collection.isTimeless_of_mem_log ofCollection

theorem timesEnd_run
    (task : EncodeTask) (inputs : Inputs) :
    (task.run inputs (.upTo .trace)).TimesEnd := by
  by_cases wastes : task.wastesSource = true
  · rw [run_of_wastesSource inputs _ wastes]
    exact .failed nofun
  cases read : task.readNames inputs with
  | error failure =>
      rw [run_of_readNames_error wastes read]
      exact .failed nofun
  | ok records =>
      have timeless :
          ∀ record ∈ task.workLog records, record.IsTimeless :=
        fun _ member => isTimeless_of_mem_workLog member
      cases written :
          task.body inputs (task.collection records).highlights with
      | error failure =>
          rw [run_of_body_error wastes read written, Threshold.shown_trace]
          exact .failed timeless
      | ok text =>
          rw [run_of_body_ok wastes read written, Threshold.shown_trace]
          exact .succeeded timeless

end EncodeTask

namespace Call

/-- Two calls with the same words, or with other words for the same encoding,
end with the same exit code and output, at any two levels of detail and with or
without colours.  Their error lines show those records of one log that pass, in
its order, and then the same failure, if there is one; the log is what the most
detailed level shows.  No record but the last of a run that succeeds depends on
the time that the run took. -/
theorem levels_choose_from_one_log
    (left right : Call) {leftThreshold rightThreshold : Threshold}
    {task otherTask : EncodeTask}
    (leftParsed :
      parse left.words left.logLevel = .ok ⟨leftThreshold, .encode task⟩)
    (rightParsed :
      parse right.words right.logLevel =
        .ok ⟨rightThreshold, .encode otherTask⟩)
    (sameEncoding : left.words = right.words ∨ task = otherTask)
    (inputs : Inputs) (leftElapsed rightElapsed : String) :
    let leftDisplay : Display := ⟨left.colored, leftElapsed⟩
    let rightDisplay : Display := ⟨right.colored, rightElapsed⟩
    let log := (task.run inputs (.upTo .trace)).log
    let failure := (task.run inputs (.upTo .trace)).failure?
    ∃ leftReport rightReport,
      left.run inputs leftElapsed = .ok leftReport ∧
        right.run inputs rightElapsed = .ok rightReport ∧
        leftReport.exitCode = rightReport.exitCode ∧
        leftReport.standardOutput = rightReport.standardOutput ∧
        (leftReport.exitCode = 0 ↔ failure = none) ∧
        leftReport.standardError =
          leftDisplay.lines (leftThreshold.shown log) failure ∧
        rightReport.standardError =
          rightDisplay.lines (rightThreshold.shown log) failure ∧
        Threshold.shown (.upTo .trace) log = log ∧
        (∀ record ∈ log.dropLast, record.IsTimeless) ∧
        (failure ≠ none → ∀ record ∈ log, record.IsTimeless) := by
  intro leftDisplay rightDisplay log failure
  obtain rfl : task = otherTask := by
    rcases sameEncoding with sameWords | sameTask
    · rw [← sameWords] at rightParsed
      exact task_eq_of_parse_encode leftParsed rightParsed
    · exact sameTask
  have timesEnd := task.timesEnd_run inputs
  refine
    ⟨_, _, run_of_parse leftParsed inputs leftElapsed,
      run_of_parse rightParsed inputs rightElapsed, ?_⟩
  rw [task.run_eq_shown inputs leftThreshold,
    task.run_eq_shown inputs rightThreshold]
  refine
    ⟨rfl, rfl, Outcome.exitCode_report_eq_zero_iff _ leftDisplay, rfl, rfl,
      Threshold.shown_trace log, ?_, ?_⟩
  · exact fun _ member => timesEnd.isTimeless_of_mem_dropLast member
  · exact fun failed _ member => timesEnd.isTimeless_of_failure failed member

/-- The document of a listing is missing.  At the level of the environment,
with colours, every record stands before the failure; at the level of the
command line, without colours, only the first does. -/
theorem levels_choose_from_one_log_of_missing_source :
    let left : Call :=
      ⟨["encode", "-", "--format", "pretty", "--source", "doc.py"],
        some "trace", programName, true⟩
    let right : Call :=
      ⟨["--log-level=info", "encode", "--source=doc.py", "--format=pretty",
          "-"],
        none, programName, false⟩
    let task : EncodeTask := ⟨"-", .pretty, .utf32, true, 4, some "doc.py"⟩
    let records : List NameRecord :=
      [(NameRecord.reference "x" 1 0 "statement").addInferred "statement"]
    let inputs : Inputs :=
      ⟨.ok (NameRecord.printAll records).toUTF8, fun _ => .error .notFound⟩
    let failure : Failure :=
      ⟨.input, "No such file or directory (os error 2)", some "doc.py"⟩
    parse left.words left.logLevel = .ok ⟨.upTo .trace, .encode task⟩ ∧
      parse right.words right.logLevel = .ok ⟨.upTo .info, .encode task⟩ ∧
      ∃ leftReport rightReport,
        left.run inputs "1ms" = .ok leftReport ∧
          right.run inputs "2ms" = .ok rightReport ∧
          leftReport.exitCode = rightReport.exitCode ∧
          leftReport.exitCode ≠ 0 ∧
          leftReport.standardOutput = rightReport.standardOutput ∧
          leftReport.standardError =
            Display.lines ⟨true, "1ms"⟩
              [.namesRead 1 "-", .inferenceLimitReached "x" 4,
                .unmappedKind "x" "statement", .collected 0 1]
              (some failure) ∧
          rightReport.standardError =
            "info: read 1 names from -\n" ++
              "i/o error: No such file or directory (os error 2)\n" ++
              " --> doc.py\n" := by
  intro left right task records inputs failure
  have leftParsed :
      parse left.words left.logLevel = .ok ⟨.upTo .trace, .encode task⟩ := by
    rfl
  have rightParsed :
      parse right.words right.logLevel = .ok ⟨.upTo .info, .encode task⟩ := by
    rfl
  refine ⟨leftParsed, rightParsed, ?_⟩
  have read : task.readNames inputs = .ok records :=
    EncodeTask.readNames_of_printed inputs.content_dash
  have ran :
      task.run inputs (.upTo .trace) =
        ⟨"",
          [.namesRead 1 "-", .inferenceLimitReached "x" 4,
            .unmappedKind "x" "statement", .collected 0 1],
          some failure⟩ := by
    rw [EncodeTask.run_of_body_error (by decide) read rfl]
    rfl
  obtain ⟨leftReport, rightReport, leftRan, rightRan, sameCode, sameOutput,
    isZeroIff, leftLines, rightLines, _⟩ :=
    levels_choose_from_one_log left right leftParsed rightParsed (.inr rfl)
      inputs "1ms" "2ms"
  rw [ran] at isZeroIff leftLines rightLines
  refine
    ⟨leftReport, rightReport, leftRan, rightRan, sameCode, ?_, sameOutput,
      leftLines, ?_⟩
  · intro isZero
    cases isZeroIff.mp isZero
  · rw [rightLines]
    decide

end Call

end SemanticTokens
