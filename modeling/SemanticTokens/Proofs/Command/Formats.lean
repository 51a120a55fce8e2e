import SemanticTokens.Proofs.Command.Reports
import SemanticTokens.Proofs.Delta.PayloadReader

/-!
# Payload and listing carry the same stream

A task may be given as a payload without a source, or as a listing over an
optional source.  Both read the same names, and so they fail alike before
anything is written, as long as the source is readable.  Otherwise the payload
carries a stream, and the listing is the listing of that stream.
-/

namespace SemanticTokens

namespace EncodeTask

def asPayload (task : EncodeTask) : EncodeTask :=
  { task with format := .json, source := none }

def asListing (task : EncodeTask) (path : Option String) : EncodeTask :=
  { task with format := .pretty, source := path }

def stream (task : EncodeTask) (records : List NameRecord) : List UInt32 :=
  Delta.encode (task.collection records).highlights

theorem wastesSource_asPayload
    (task : EncodeTask) :
    task.asPayload.wastesSource ≠ true := by
  rw [ne_eq, wastesSource_iff]
  exact fun wastes => wastes.1 rfl

theorem wastesSource_asListing
    (task : EncodeTask) (path : Option String) :
    (task.asListing path).wastesSource ≠ true := by
  rw [ne_eq, wastesSource_iff]
  exact fun wastes => wastes.2 rfl

theorem run_asPayload
    {task : EncodeTask} {inputs : Inputs} {records : List NameRecord}
    (read : task.readNames inputs = .ok records) (threshold : Threshold) :
    (task.asPayload.run inputs threshold).failure? = none ∧
      (task.asPayload.run inputs threshold).output =
        "\x7b\"data\":[" ++
            ",".intercalate
              ((task.stream records).map fun number =>
                toString number.toNat) ++
            "]\x7d" ++
          "\n" := by
  rw [run_of_body_ok task.wastesSource_asPayload
    (show task.asPayload.readNames inputs = .ok records from read) rfl]
  exact ⟨rfl, rfl⟩

theorem run_asListing
    {task : EncodeTask} {inputs : Inputs} {records : List NameRecord}
    {path source : Option String}
    (read : task.readNames inputs = .ok records)
    (shown : inputs.ShowsSource path source) (threshold : Threshold) :
    ((task.asListing path).run inputs threshold).failure? = none ∧
      ((task.asListing path).run inputs threshold).output =
        Listing.text (task.stream records) source task.unit
            Legend.standard ++ "\n" := by
  have written :
      (task.asListing path).body inputs
          ((task.asListing path).collection records).highlights =
        .ok
          (Listing.text (task.stream records) source task.unit
            Legend.standard) := by
    simp only [body, asListing, Inputs.sourceText_of_showsSource shown]
    rfl
  rw [run_of_body_ok (task.wastesSource_asListing path)
    (show (task.asListing path).readNames inputs = .ok records from read)
    written]
  exact ⟨rfl, rfl⟩

end EncodeTask

namespace Call

/-- If the run with the payload succeeds, the stream of the names is read back
from its output, and the run with the listing succeeds and lists that very
stream.  If it fails, both report the same failure. -/
theorem payload_and_listing_carry_same_stream
    (payloadCall listingCall : Call)
    {payloadThreshold listingThreshold : Threshold} {task : EncodeTask}
    {path source : Option String} {inputs : Inputs}
    (payloadParsed :
      parse payloadCall.words payloadCall.logLevel =
        .ok ⟨payloadThreshold, .encode task.asPayload⟩)
    (listingParsed :
      parse listingCall.words listingCall.logLevel =
        .ok ⟨listingThreshold, .encode (task.asListing path)⟩)
    (shown : inputs.ShowsSource path source)
    (payloadElapsed listingElapsed : String) :
    let payloadDisplay : Display := ⟨payloadCall.colored, payloadElapsed⟩
    let listingDisplay : Display := ⟨listingCall.colored, listingElapsed⟩
    ∃ payloadReport listingReport,
      payloadCall.run inputs payloadElapsed = .ok payloadReport ∧
        listingCall.run inputs listingElapsed = .ok listingReport ∧
        (payloadReport.exitCode = 0 →
          ∃ text records stream payload,
            Readable (inputs.content task.input) text ∧
              NameRecord.readAll text.toList = .ok records ∧
              stream =
                Delta.encode
                  (Collection.ofOccurrences
                    (records.map NameRecord.occurrence)
                    task.policy).highlights ∧
              payload =
                "\x7b\"data\":[" ++
                  ",".intercalate
                    (stream.map fun number => toString number.toNat) ++
                  "]\x7d" ∧
              Delta.readPayload? payload.toList = some stream ∧
              payloadReport.standardOutput = payload ++ "\n" ∧
              listingReport.exitCode = 0 ∧
              listingReport.standardOutput =
                Listing.text stream source task.unit Legend.standard ++
                  "\n") ∧
        (payloadReport.exitCode ≠ 0 →
          ∃ failure,
            payloadReport = ⟨1, "", payloadDisplay.failureText failure⟩ ∧
              listingReport =
                ⟨1, "", listingDisplay.failureText failure⟩) := by
  intro payloadDisplay listingDisplay
  refine
    ⟨_, _, run_of_parse payloadParsed inputs payloadElapsed,
      run_of_parse listingParsed inputs listingElapsed, ?_⟩
  cases read : task.readNames inputs with
  | error failure =>
      have payloadRun :=
        EncodeTask.run_of_readNames_error task.wastesSource_asPayload
          (show task.asPayload.readNames inputs = .error failure from read)
          payloadThreshold
      have listingRun :=
        EncodeTask.run_of_readNames_error (task.wastesSource_asListing path)
          (show (task.asListing path).readNames inputs = .error failure
            from read)
          listingThreshold
      have reported (display : Display) :
          Outcome.report ⟨"", [], some failure⟩ display =
            ⟨1, "", display.failureText failure⟩ := by
        rw [Report.mk.injEq]
        exact ⟨rfl, rfl, String.empty_append⟩
      rw [payloadRun, listingRun, reported, reported]
      constructor
      · intro isZero
        cases isZero
      · intro _
        exact ⟨failure, rfl, rfl⟩
  | ok records =>
      obtain ⟨text, readable, wellFormed⟩ :=
        EncodeTask.exists_readable_of_readNames read
      obtain ⟨payloadEnds, payloadOutput⟩ :=
        EncodeTask.run_asPayload read payloadThreshold
      obtain ⟨listingEnds, listingOutput⟩ :=
        EncodeTask.run_asListing read shown listingThreshold
      have payloadZero :=
        (Outcome.exitCode_report_eq_zero_iff _ payloadDisplay).mpr payloadEnds
      have listingZero :=
        (Outcome.exitCode_report_eq_zero_iff _ listingDisplay).mpr listingEnds
      constructor
      · intro _
        have readBack :=
          Delta.readPayload?_payload
            (Delta.groups (task.collection records).highlights)
        exact
          ⟨text, records, _, _, readable, wellFormed, rfl, rfl, readBack,
            payloadOutput, listingZero, listingOutput⟩
      · intro fails
        exact (fails payloadZero).elim

/-- A definition after an astral character, in UTF-16: the payload of its name
comes from the standard input, and the listing shows it in its source. -/
theorem payload_and_listing_carry_same_stream_of_definition :
    let payloadCall : Call :=
      ⟨["encode", "-", "--encoding", "utf-16", "--no-sort"], none,
        programName, false⟩
    let listingCall : Call :=
      ⟨["--log-level=debug", "encode", "--format", "pretty",
          "--encoding=utf-16", "--no-sort", "--source", "doc.py", "-"],
        none, programName, true⟩
    let task : EncodeTask := ⟨"-", .json, .utf16, false, 4, none⟩
    let records : List NameRecord :=
      [(NameRecord.reference "f" 1 2 "function").asDefinition]
    let source := "𝛼f"
    let inputs : Inputs :=
      ⟨.ok (NameRecord.printAll records).toUTF8, fun _ => .ok source.toUTF8⟩
    parse payloadCall.words payloadCall.logLevel =
        .ok ⟨.upTo .warn, .encode task.asPayload⟩ ∧
      parse listingCall.words listingCall.logLevel =
        .ok ⟨.upTo .debug, .encode (task.asListing (some "doc.py"))⟩ ∧
      inputs.ShowsSource (some "doc.py") (some source) ∧
      ∃ payloadReport listingReport,
        payloadCall.run inputs "1ms" = .ok payloadReport ∧
          listingCall.run inputs "2ms" = .ok listingReport ∧
          payloadReport.exitCode = 0 ∧
          payloadReport.standardOutput =
            "\x7b\"data\":[0,2,1,3,1]\x7d\n" ∧
          listingReport.exitCode = 0 ∧
          listingReport.standardOutput =
            Listing.text [0, 2, 1, 3, 1] (some source) .utf16
              Legend.standard ++ "\n" := by
  intro payloadCall listingCall task records source inputs
  have payloadParsed :
      parse payloadCall.words payloadCall.logLevel =
        .ok ⟨.upTo .warn, .encode task.asPayload⟩ := by
    rfl
  have listingParsed :
      parse listingCall.words listingCall.logLevel =
        .ok ⟨.upTo .debug, .encode (task.asListing (some "doc.py"))⟩ := by
    rfl
  have shown : inputs.ShowsSource (some "doc.py") (some source) :=
    .document rfl
  refine ⟨payloadParsed, listingParsed, shown, ?_⟩
  have read : task.readNames inputs = .ok records :=
    EncodeTask.readNames_of_printed inputs.content_dash
  obtain ⟨payloadReport, listingReport, payloadRan, listingRan, carries, _⟩ :=
    payload_and_listing_carry_same_stream payloadCall listingCall
      payloadParsed listingParsed shown "1ms" "2ms"
  refine ⟨payloadReport, listingReport, payloadRan, listingRan, ?_⟩
  have isZero : payloadReport.exitCode = 0 := by
    rw [run_of_parse payloadParsed, Except.ok.injEq] at payloadRan
    rw [← payloadRan, Outcome.exitCode_report_eq_zero_iff]
    exact (EncodeTask.run_asPayload read _).1
  obtain ⟨text, others, stream, payload, readable, wellFormed, isStream,
    isPayload, _, payloadOutput, listingZero, listingOutput⟩ := carries isZero
  have sameRecords : records = others := by
    have readOthers := EncodeTask.readNames_of_readable readable wellFormed
    exact Except.ok.inj (read.symm.trans readOthers)
  have numbers : stream = [0, 2, 1, 3, 1] := by
    rw [isStream, ← sameRecords]
    decide
  rw [numbers] at isPayload listingOutput
  rw [isPayload] at payloadOutput
  exact ⟨isZero, payloadOutput, listingZero, listingOutput⟩

end Call

end SemanticTokens
