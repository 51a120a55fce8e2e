import SemanticTokens.Proofs.Command.ChosenLevel
import SemanticTokens.Proofs.Command.Reports

/-!
# The same content from the standard input and from a file

A single dash stands for the standard input.  With a file in its place, and
all other arguments as they are, the command line asks for the same task but
for the input.

Where the standard input and the file have the same content, the two runs end
alike.  Nothing that is done after the input is read can tell where it came
from, except for the path in a failure that the content is to blame for.
-/

namespace SemanticTokens

/-! ## Paths of files -/

theorem FilePath.head?_eq_of_isStandardInput
    {path : String} (standard : FilePath.isStandardInput path = true) :
    path.toList.head? = some '-' := by
  unfold isStandardInput at standard
  cases letters : path.toList with
  | nil =>
      rw [letters] at standard
      cases standard
  | cons letter rest =>
      rw [letters, pieces] at standard
      by_cases slash : letter = '/'
      · rw [if_pos slash] at standard
        cases standard
      · rw [if_neg slash] at standard
        -- The first piece begins with the first letter and is a single dash.
        have isDash : letter = '-' := by
          cases behind : pieces rest with
          | nil =>
              rw [behind, Bool.and_eq_true, beq_iff_eq] at standard
              exact (List.cons.inj standard.1).1
          | cons piece others =>
              rw [behind, Bool.and_eq_true, beq_iff_eq] at standard
              exact (List.cons.inj standard.1).1
        rw [isDash, List.head?_cons]

theorem content_of_file
    {inputs : Inputs} {path : String}
    (noDash : path.toList.head? ≠ some '-') :
    inputs.content path = inputs.file path := by
  rw [Inputs.content, if_neg]
  intro standard
  exact noDash (FilePath.head?_eq_of_isStandardInput standard)

/-! ## Arguments with another input -/

namespace Arguments

section OtherInput

variable {grammar : Grammar} {first second : Arguments} {path : String}

theorem given_with_input
    (path other : String) (option : ValueOption) :
    given (first ++ [.input other] ++ second) option =
      given (first ++ [.input path] ++ second) option := by
  rw [given_insert_eq rfl, given_insert_eq rfl]

theorem count_noSort_with_input
    (path other : String) :
    List.count .noSort (first ++ [.input other] ++ second) =
      List.count .noSort (first ++ [.input path] ++ second) := by
  have noFlag (path : String) : .noSort ∉ [Item.input path] := by
    rw [List.mem_singleton]
    exact nofun
  rw [count_noSort_insert_eq (noFlag other),
    count_noSort_insert_eq (noFlag path)]

theorem inputs_insert_input
    (path : String) :
    inputs (first ++ [.input path] ++ second) =
      first.inputs ++ [path] ++ second.inputs := by
  rw [inputs_append, inputs_append]
  rfl

/-- An input that is the only one is the one that is taken. -/
theorem Valid.input?_eq
    (valid : Valid grammar (first ++ [.input path] ++ second))
    (takesInput : grammar.takesInput = true) (other : String) :
    input? (first ++ [.input other] ++ second) = some other := by
  have counted := valid.oneInput takesInput
  rw [inputs_insert_input, List.length_append, List.length_append,
    List.length_singleton] at counted
  have noneBefore : first.inputs = [] :=
    List.length_eq_zero_iff.mp (by omega)
  rw [input?_eq_head?_inputs, inputs_insert_input, noneBefore]
  rfl

theorem WellFormed.with_input
    (wellFormed : WellFormed grammar (first ++ [.input path] ++ second))
    (other : String) :
    WellFormed grammar (first ++ [.input other] ++ second) where
  taken := by
    intro item member
    rcases mem_insert_iff.mp member with old | new
    · exact wellFormed.taken item (mem_insert_iff.mpr (Or.inl old))
    · rw [List.mem_singleton.mp new]
      exact
        wellFormed.taken (.input path)
          (mem_insert_iff.mpr (Or.inr (List.mem_singleton_self _)))
  oneInput := by
    intro takesInput
    have counted := wellFormed.oneInput takesInput
    rw [inputs_insert_input, List.length_append, List.length_append]
      at counted
    rw [inputs_insert_input, List.length_append, List.length_append]
    exact counted
  allowed := by
    intro option value member
    have occurs := mem_given_iff.mpr member
    rw [given_with_input path other] at occurs
    exact wellFormed.allowed option value (mem_given_iff.mp occurs)
  once := by
    intro option
    rw [given_with_input path other]
    exact wellFormed.once option
  noSortOnce := by
    rw [count_noSort_with_input path other]
    exact wellFormed.noSortOnce

/-- Another input changes nothing in the task but the input. -/
theorem encodeTask_with_input
    {task : EncodeTask}
    (valid : Valid grammar (first ++ [.input path] ++ second))
    (takesInput : grammar.takesInput = true)
    (asked : encodeTask (first ++ [.input path] ++ second) = .ok task)
    (other : String) :
    encodeTask (first ++ [.input other] ++ second) =
      .ok { task with input := other } := by
  obtain ⟨input, format, unit, limit, _, formatRead, unitRead, limitRead,
    rfl⟩ := exists_of_encodeTask asked
  have sameValue (option : ValueOption) :
      valueOrElse? (first ++ [.input other] ++ second) none option =
        valueOrElse? (first ++ [.input path] ++ second) none option :=
    valueOrElse?_congr (given_with_input path other option) none
  have sameFlag :
      (first ++ [Item.input other] ++ second).contains .noSort =
        (first ++ [Item.input path] ++ second).contains .noSort :=
    contains_noSort_congr (count_noSort_with_input path other)
  rw [encodeTask_eq_ok (valid.input?_eq takesInput other)
    (by rw [sameValue]; exact formatRead)
    (by rw [sameValue]; exact unitRead)
    (by rw [sameValue]; exact limitRead),
    sameFlag, sameValue]

end OtherInput

end Arguments

/-- Words with one input in place of another one ask for the same task but for the
input. -/
theorem parse_encode_with_input
    {outer first second : Arguments}
    {front words otherWords : List String} {path other : String}
    {environment : Option String}
    (outerWellFormed : outer.WellFormed .program)
    (outerWritten : outer.WrittenAs front)
    (wellFormed :
      Arguments.WellFormed .encode (first ++ [.input path] ++ second))
    (allowed : Arguments.AllowsEnvironment environment)
    (written : Arguments.WrittenToEnd (first ++ [.input path] ++ second) words)
    (otherWritten :
      Arguments.WrittenToEnd (first ++ [.input other] ++ second) otherWords) :
    ∃ level task,
      parse (front ++ "encode" :: words) environment =
          .ok ⟨level, .encode task⟩ ∧
        task.input = path ∧
        parse (front ++ "encode" :: otherWords) environment =
          .ok ⟨level, .encode { task with input := other }⟩ := by
  have otherWellFormed := wellFormed.with_input other
  have scanned (rest : List String) :=
    scan_written_command outerWritten outerWellFormed.taken rfl
      (show "encode" ∈ commandNames by decide) rest
  obtain ⟨task, asked⟩ := wellFormed.exists_encodeTask_eq_ok rfl
  obtain ⟨level, chosen⟩ :=
    exists_threshold_eq_ok outerWellFormed.toValid wellFormed.toValid allowed
  have sameLevel :
      threshold outer (first ++ [.input other] ++ second) environment =
        threshold outer (first ++ [.input path] ++ second) environment :=
    threshold_congr (Arguments.given_with_input path other .logLevel) outer
      environment
  refine ⟨level, task, ?_, ?_, ?_⟩
  · exact
      parse_encode_of_checks (scanned words) rfl
        (wellFormed.scan_eq_ok written rfl rfl)
        (wellFormed.check_eq_ok allowed none)
        (outerWellFormed.check_eq_ok allowed _) asked chosen
  · have sameTask :=
      Arguments.encodeTask_with_input wellFormed.toValid rfl asked path
    rw [asked] at sameTask
    exact congrArg EncodeTask.input (Except.ok.inj sameTask)
  · exact
      parse_encode_of_checks (scanned otherWords) rfl
        (otherWellFormed.scan_eq_ok otherWritten rfl rfl)
        (otherWellFormed.check_eq_ok allowed none)
        (outerWellFormed.check_eq_ok allowed _)
        (Arguments.encodeTask_with_input wellFormed.toValid rfl asked other)
        (sameLevel.trans chosen)

/-! ## Runs over the same content -/

/-- How the failures of two runs over the same content compare, the first from the
standard input and the second from a file.  The kind and the message are the same, and
so is the path unless the content is to blame. -/
inductive FailAlike (content : ByteArray) (path : String) :
    Failure → Failure → Prop
  | unusedSource :
      FailAlike content path .sourceWithoutListing .sourceWithoutListing
  | notUtf8
      (noText : ∀ text : String, text.toUTF8 ≠ content) :
      FailAlike content path
        ⟨.input, ReadFailure.notUtf8.text, none⟩
        ⟨.input, ReadFailure.notUtf8.text, some path⟩
  | malformed {text : String} {fault : Json.Fault}
      (isText : text.toUTF8 = content)
      (malformed : NameRecord.readAll text.toList = .error fault) :
      FailAlike content path
        ⟨.parse, fault.message text.toList, some "-"⟩
        ⟨.parse, fault.message text.toList, some path⟩
  | unreadableSource {text : String} {records : List NameRecord}
      (isText : text.toUTF8 = content)
      (wellFormed : NameRecord.readAll text.toList = .ok records)
      (failure : Failure) :
      FailAlike content path failure failure

/-- How two runs over the same content end: with the same output, or with failures that
differ by the path of the input at most. -/
inductive EndAlike (content : ByteArray) (path : String) :
    Outcome → Outcome → Prop
  | written {log fileLog : List LogRecord} (output : String) :
      EndAlike content path ⟨output, log, none⟩ ⟨output, fileLog, none⟩
  | failed {log fileLog : List LogRecord} {failure fileFailure : Failure}
      (alike : FailAlike content path failure fileFailure) :
      EndAlike content path ⟨"", log, some failure⟩
        ⟨"", fileLog, some fileFailure⟩

theorem FailAlike.kind_eq
    {content : ByteArray} {path : String} {failure fileFailure : Failure}
    (alike : FailAlike content path failure fileFailure) :
    failure.kind = fileFailure.kind := by
  cases alike <;> rfl

theorem FailAlike.message_eq
    {content : ByteArray} {path : String} {failure fileFailure : Failure}
    (alike : FailAlike content path failure fileFailure) :
    failure.message = fileFailure.message := by
  cases alike <;> rfl

namespace EncodeTask

/-- What is put out depends on the highlights and the source alone. -/
theorem body_with_input
    (task : EncodeTask) (inputs : Inputs) (path : String)
    (content : Except ReadFailure ByteArray) (highlights : List Highlight) :
    task.body { inputs with standardInput := content } highlights =
      { task with input := path }.body inputs highlights := by
  have sameSource :
      Inputs.sourceText { inputs with standardInput := content } task.source =
        inputs.sourceText task.source := by
    cases task.source <;> rfl
  rw [body, body, sameSource]

section SameContent

variable {task : EncodeTask} {inputs : Inputs} {path : String}
  {content : ByteArray} (threshold : Threshold)

/-- A content that is no text is reported, without a path or under that of the file. -/
theorem endAlike_of_noText
    (dash : task.input = "-") (noDash : path.toList.head? ≠ some '-')
    (inFile : inputs.file path = .ok content)
    (used : task.wastesSource ≠ true)
    (noText : ∀ text : String, text.toUTF8 ≠ content) :
    EndAlike content path
      (task.run { inputs with standardInput := .ok content } threshold)
      ({ task with input := path }.run inputs threshold) := by
  have piped :
      Unreadable
        (Inputs.content { inputs with standardInput := .ok content }
          task.input)
        .notUtf8 := by
    rw [dash, Inputs.content_dash]
    exact .notUtf8 noText
  have stored :
      Unreadable (inputs.content { task with input := path }.input)
        .notUtf8 := by
    rw [content_of_file noDash, inFile]
    exact .notUtf8 noText
  have fromStandardInput : FilePath.isStandardInput task.input = true := by
    rw [dash]
    decide
  have fromFile :
      FilePath.isStandardInput { task with input := path }.input ≠ true :=
    fun standard => noDash (FilePath.head?_eq_of_isStandardInput standard)
  have pipedRun :=
    run_of_readNames_error used (readNames_of_unreadable piped) threshold
  have fileRun :=
    run_of_readNames_error (show { task with input := path }.wastesSource ≠ true
      from used) (readNames_of_unreadable stored) threshold
  rw [if_pos fromStandardInput] at pipedRun
  rw [if_neg fromFile] at fileRun
  rw [pipedRun, fileRun]
  exact .failed (.notUtf8 noText)

/-- A text is read once, and what comes after that is the same. -/
theorem endAlike_of_text
    {text : String} (dash : task.input = "-")
    (noDash : path.toList.head? ≠ some '-')
    (inFile : inputs.file path = .ok content)
    (used : task.wastesSource ≠ true) (isText : text.toUTF8 = content) :
    EndAlike content path
      (task.run { inputs with standardInput := .ok content } threshold)
      ({ task with input := path }.run inputs threshold) := by
  have piped :
      Readable
        (Inputs.content { inputs with standardInput := .ok content }
          task.input)
        text := by
    rw [dash, Inputs.content_dash, Readable, isText]
  have stored :
      Readable (inputs.content { task with input := path }.input) text := by
    rw [content_of_file noDash, inFile, Readable, isText]
  have fileUsed : { task with input := path }.wastesSource ≠ true :=
    used
  cases read : NameRecord.readAll text.toList with
  | error fault =>
      rw [run_of_readNames_error used (readNames_of_malformed piped read),
        run_of_readNames_error fileUsed (readNames_of_malformed stored read),
        dash]
      exact .failed (.malformed isText read)
  | ok records =>
      have sameBody :=
        task.body_with_input inputs path (.ok content)
          (task.collection records).highlights
      cases written :
          { task with input := path }.body inputs
            (task.collection records).highlights with
      | error failure =>
          rw [run_of_body_error used (readNames_of_readable piped read)
              (sameBody.trans written),
            run_of_body_error fileUsed (readNames_of_readable stored read)
              written]
          exact .failed (.unreadableSource isText read failure)
      | ok output =>
          rw [run_of_body_ok used (readNames_of_readable piped read)
              (sameBody.trans written),
            run_of_body_ok fileUsed (readNames_of_readable stored read)
              written]
          exact .written (output ++ "\n")

theorem endAlike_run
    (dash : task.input = "-") (noDash : path.toList.head? ≠ some '-')
    (inFile : inputs.file path = .ok content) :
    EndAlike content path
      (task.run { inputs with standardInput := .ok content } threshold)
      ({ task with input := path }.run inputs threshold) := by
  by_cases used : task.wastesSource = true
  · have fileUsed : { task with input := path }.wastesSource = true := used
    rw [run_of_wastesSource _ threshold used,
      run_of_wastesSource _ threshold fileUsed]
    exact .failed .unusedSource
  · by_cases isText : ∃ text : String, text.toUTF8 = content
    · obtain ⟨text, isText⟩ := isText
      exact endAlike_of_text threshold dash noDash inFile used isText
    · apply endAlike_of_noText threshold dash noDash inFile used
      intro text same
      exact isText ⟨text, same⟩

end SameContent

end EncodeTask

/-! ## Reports -/

namespace EndAlike

variable {content : ByteArray} {path : String}
  {outcome fileOutcome : Outcome}

theorem report_eq
    (alike : EndAlike content path outcome fileOutcome)
    (display fileDisplay : Display) :
    (outcome.report display).exitCode =
        (fileOutcome.report fileDisplay).exitCode ∧
      (outcome.report display).standardOutput =
        (fileOutcome.report fileDisplay).standardOutput := by
  cases alike with
  | written output =>
      exact ⟨rfl, rfl⟩
  | failed alike =>
      exact ⟨rfl, rfl⟩

theorem exists_failures
    (alike : EndAlike content path outcome fileOutcome)
    {display : Display} (fails : (outcome.report display).exitCode ≠ 0)
    (fileDisplay : Display) :
    ∃ failure fileFailure,
      FailAlike content path failure fileFailure ∧
        (outcome.report display).standardError =
          display.logText outcome.log ++ display.failureText failure ∧
        (fileOutcome.report fileDisplay).standardError =
          fileDisplay.logText fileOutcome.log ++
            fileDisplay.failureText fileFailure := by
  cases alike with
  | written output =>
      exact (fails rfl).elim
  | failed alike =>
      exact ⟨_, _, alike, rfl, rfl⟩

end EndAlike

namespace Call

/-- A call with a dash as its input, over some standard input, and the call with a
file of the same content in its place end with the same code and the same output.  If
they fail, the failures have the same kind and the same message, and the paths differ
only where the content is no text or no list of records. -/
theorem standard_input_and_file_run_alike
    {outer first second : Arguments} {front words fileWords : List String}
    {environment : Option String} {path : String} {content : ByteArray}
    {inputs : Inputs}
    (outerWellFormed : outer.WellFormed .program)
    (outerWritten : outer.WrittenAs front)
    (wellFormed :
      Arguments.WellFormed .encode (first ++ [.input "-"] ++ second))
    (allowed : Arguments.AllowsEnvironment environment)
    (written : Arguments.WrittenToEnd (first ++ [.input "-"] ++ second) words)
    (fileWritten :
      Arguments.WrittenToEnd (first ++ [.input path] ++ second) fileWords)
    (noDash : path.toList.head? ≠ some '-')
    (inFile : inputs.file path = .ok content)
    (calledAs : String) (colored : Bool) (elapsed fileElapsed : String) :
    let call : Call :=
      ⟨front ++ "encode" :: words, environment, calledAs, colored⟩
    let fileCall : Call :=
      ⟨front ++ "encode" :: fileWords, environment, calledAs, colored⟩
    let piped : Inputs := { inputs with standardInput := .ok content }
    ∃ level task report fileReport,
      parse call.words environment = .ok ⟨level, .encode task⟩ ∧
        parse fileCall.words environment =
          .ok ⟨level, .encode { task with input := path }⟩ ∧
        call.run piped elapsed = .ok report ∧
        fileCall.run inputs fileElapsed = .ok fileReport ∧
        report.exitCode = fileReport.exitCode ∧
        report.standardOutput = fileReport.standardOutput ∧
        (report.exitCode ≠ 0 →
          let display : Display := ⟨colored, elapsed⟩
          let fileDisplay : Display := ⟨colored, fileElapsed⟩
          ∃ failure fileFailure,
            report.standardError =
                display.logText (task.run piped level).log ++
                  display.failureText failure ∧
              fileReport.standardError =
                fileDisplay.logText
                    ({ task with input := path }.run inputs level).log ++
                  fileDisplay.failureText fileFailure ∧
              failure.kind = fileFailure.kind ∧
              failure.message = fileFailure.message ∧
              FailAlike content path failure fileFailure) := by
  intro call fileCall piped
  obtain ⟨level, task, parsed, dash, fileParsed⟩ :=
    parse_encode_with_input outerWellFormed outerWritten wellFormed allowed
      written fileWritten
  have alike := EncodeTask.endAlike_run level dash noDash inFile
  obtain ⟨sameCode, sameOutput⟩ :=
    alike.report_eq ⟨colored, elapsed⟩ ⟨colored, fileElapsed⟩
  refine
    ⟨level, task, _, _, parsed, fileParsed,
      @run_of_parse call level task parsed piped elapsed,
      @run_of_parse fileCall level { task with input := path } fileParsed
        inputs fileElapsed,
      sameCode, sameOutput, ?_⟩
  intro fails display fileDisplay
  obtain ⟨failure, fileFailure, failAlike, reported, fileReported⟩ :=
    alike.exists_failures fails fileDisplay
  exact
    ⟨failure, fileFailure, reported, fileReported, failAlike.kind_eq,
      failAlike.message_eq, failAlike⟩

/-- A content that is no text, with the input at the end of the options and behind
it. -/
theorem standard_input_and_file_run_alike_over_no_text :
    let content : ByteArray := ⟨#[0xff]⟩
    let inputs : Inputs := ⟨.error .isDirectory, fun _ => .ok content⟩
    let call : Call :=
      ⟨["encode", "--format", "pretty", "-"], some "info", programName, false⟩
    let fileCall : Call :=
      ⟨["encode", "--format=pretty", "--", "names.json"], some "info",
        programName, false⟩
    Arguments.WellFormed .encode
        ([.valued .format (some "pretty")] ++ [.input "-"] ++ []) ∧
      "names.json".toList.head? ≠ some '-' ∧
      inputs.file "names.json" = .ok content ∧
      ∃ report fileReport,
        call.run { inputs with standardInput := .ok content } "1ms" =
            .ok report ∧
          fileCall.run inputs "2ms" = .ok fileReport ∧
          report.exitCode = 1 ∧
          report.standardOutput = "" ∧
          fileReport.exitCode = 1 ∧
          fileReport.standardOutput = "" := by
  intro content inputs call fileCall
  have asks :
      Arguments.AskFor
        ([.valued .format (some "pretty")] ++ [.input "-"] ++ [])
        { input := "-", format := .pretty } :=
    { input := by rfl
      format := ⟨"pretty", rfl, Or.inl rfl⟩
      unit := ⟨"utf-32", rfl, Or.inr ⟨rfl, rfl⟩⟩
      limit := ⟨"4", ⟨0, Or.inl (by decide)⟩, Or.inr ⟨rfl, rfl⟩⟩
      source := by rfl
      noSort := by rfl
      noLevel := by rfl }
  have wellFormed :
      Arguments.WellFormed .encode
        ([.valued .format (some "pretty")] ++ [.input "-"] ++ []) :=
    (asks.wellFormed (by decide)).encode
  have written :
      Arguments.WrittenToEnd
        ([.valued .format (some "pretty")] ++ [.input "-"] ++ [])
        ["--format", "pretty", "-"] :=
    .unseparated
      (.cons (@Item.WrittenAs.apart .format "pretty" (by decide))
        (.singleton (.input (by decide))))
  have fileWritten :
      Arguments.WrittenToEnd
        ([.valued .format (some "pretty")] ++ [.input "names.json"] ++ [])
        ["--format=pretty", "--", "names.json"] :=
    .separated
      (.singleton (@Item.WrittenAs.joined .format "pretty" "pretty" rfl))
      ["names.json"]
  have noDash : "names.json".toList.head? ≠ some '-' := by
    decide
  refine ⟨wellFormed, noDash, rfl, ?_⟩
  obtain ⟨level, task, report, fileReport, parsed, _, ran, fileRan, sameCode,
    sameOutput, _⟩ :=
    @standard_input_and_file_run_alike [] _ [] [] _ _ (some "info")
      "names.json" content inputs (Arguments.wellFormed_ofLevel none) .nil
      wellFormed (allowsEnvironment_name (some (.upTo .info))) written
      fileWritten noDash rfl programName false "1ms" "2ms"
  have sameInvocation :
      (⟨level, .encode task⟩ : Invocation) =
        ⟨.upTo .info, .encode { input := "-", format := .pretty }⟩ :=
    Except.ok.inj (parsed.symm.trans (by rfl))
  cases sameInvocation
  have unreadable :
      Unreadable
        (Inputs.content { inputs with standardInput := .ok content } "-")
        .notUtf8 := by
    rw [Inputs.content_dash]
    exact .notUtf8 (toUTF8_ne_of_not_valid (by decide))
  have failed :=
    EncodeTask.run_of_readNames_error
      (show EncodeTask.wastesSource { input := "-", format := .pretty } ≠ true
        by decide)
      (EncodeTask.readNames_of_unreadable unreadable) (.upTo .info)
  rw [run_of_parse parsed, failed] at ran
  cases ran
  exact
    ⟨_, fileReport, run_of_parse parsed _ _ |>.trans (by rw [failed]),
      fileRan, rfl, rfl, sameCode.symm, sameOutput.symm⟩

end Call

end SemanticTokens
