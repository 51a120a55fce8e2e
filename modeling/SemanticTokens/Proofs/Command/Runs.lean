import SemanticTokens.Proofs.Command.Actions
import SemanticTokens.Command.Run

/-!
# Runs of the encoding command

The level of detail chooses the records of a run and nothing else, and a run that
fails puts nothing out: every step has the one property, and the only step that
may fail after the names are read comes before the first that puts something out.

What a run comes to is told by what it reads.  It may end before the names are
read, with an empty log.  Otherwise it logs how many names it read and what it
collected, and then either fails for want of the source, or puts out the payload
or the listing and logs how many tokens it has.
-/

namespace SemanticTokens

namespace EncodeTask

/-- What is put out for some highlights, without the line end. -/
def body (task : EncodeTask) (inputs : Inputs) (highlights : List Highlight) :
    Except Failure String :=
  match task.format with
  | .json => .ok (Delta.payload (Delta.groups highlights))
  | .pretty =>
      (inputs.sourceText task.source).map fun source =>
        Listing.text (Delta.encode highlights) source task.unit Legend.standard

/-- The log of a run up to the record of its success. -/
def workLog (task : EncodeTask) (records : List NameRecord) :
    List LogRecord :=
  .namesRead records.length task.input :: (task.collection records).log

/-! ## The level of a run -/

theorem levelChoosesRecords_write
    (task : EncodeTask) (inputs : Inputs) (highlights : List Highlight) :
    (task.write inputs highlights).LevelChoosesRecords := by
  rw [write]
  cases task.format with
  | json =>
      exact .put _
  | pretty =>
      exact (Action.LevelChoosesRecords.ofExcept _).bind fun _ => .put _

theorem levelChoosesRecords_encodeNames
    (task : EncodeTask) (inputs : Inputs) (records : List NameRecord) :
    (task.encodeNames inputs records).LevelChoosesRecords :=
  (Action.LevelChoosesRecords.note _).bind fun _ =>
    (Action.LevelChoosesRecords.noteAll _).bind fun _ =>
      (task.levelChoosesRecords_write inputs _).bind fun _ =>
        (Action.LevelChoosesRecords.put _).bind fun _ => .note _

theorem levelChoosesRecords_action
    (task : EncodeTask) (inputs : Inputs) :
    (task.action inputs).LevelChoosesRecords :=
  (Action.LevelChoosesRecords.ofExcept _).bind fun _ =>
    (Action.LevelChoosesRecords.ofExcept _).bind fun records =>
      task.levelChoosesRecords_encodeNames inputs records

/-- A run at some level is the run at the most detailed one, but for the records
that do not pass. -/
theorem run_eq_shown
    (task : EncodeTask) (inputs : Inputs) (threshold : Threshold) :
    task.run inputs threshold =
      { task.run inputs (.upTo .trace) with
        log := threshold.shown (task.run inputs (.upTo .trace)).log } :=
  (task.levelChoosesRecords_action inputs).outcome_eq threshold

/-! ## Failing runs put nothing out -/

theorem wastesSource_iff
    (task : EncodeTask) :
    task.wastesSource = true ↔ task.source ≠ none ∧ task.format ≠ .pretty := by
  rw [wastesSource, Bool.and_eq_true, bne_iff_ne, Option.isSome_iff_ne_none]

theorem run_of_wastesSource
    {task : EncodeTask} (inputs : Inputs) (threshold : Threshold)
    (wastes : task.wastesSource = true) :
    task.run inputs threshold = ⟨"", [], some .sourceWithoutListing⟩ := by
  rw [run, Action.outcome, action, Action.runFrom_bind, checkSource,
    if_pos wastes, Action.runFrom_ofExcept_error]
  rfl

theorem run_of_used
    {task : EncodeTask} (inputs : Inputs) (threshold : Threshold)
    (used : task.wastesSource ≠ true) :
    task.run inputs threshold =
      (Action.ofExcept (task.readNames inputs) >>=
        task.encodeNames inputs).outcome threshold := by
  rw [run, Action.outcome, action, Action.runFrom_bind, checkSource,
    if_neg used, Action.runFrom_ofExcept_ok]
  rfl

theorem run_of_readNames_error
    {task : EncodeTask} {inputs : Inputs} {failure : Failure}
    (used : task.wastesSource ≠ true)
    (failed : task.readNames inputs = .error failure)
    (threshold : Threshold) :
    task.run inputs threshold = ⟨"", [], some failure⟩ := by
  rw [run_of_used inputs threshold used, failed, Action.outcome,
    Action.runFrom_bind, Action.runFrom_ofExcept_error]
  rfl

theorem run_of_readNames_ok
    {task : EncodeTask} {inputs : Inputs} {records : List NameRecord}
    (used : task.wastesSource ≠ true)
    (read : task.readNames inputs = .ok records)
    (threshold : Threshold) :
    task.run inputs threshold =
      (task.encodeNames inputs records).outcome threshold := by
  rw [run_of_used inputs threshold used, read, Action.outcome,
    Action.runFrom_bind, Action.runFrom_ofExcept_ok]
  rfl

theorem runFrom_write
    (task : EncodeTask) (inputs : Inputs) (highlights : List Highlight)
    (threshold : Threshold) (before : Progress) :
    (task.write inputs highlights).runFrom threshold before =
      match task.body inputs highlights with
      | .ok text => .ok () { before with output := before.output ++ text }
      | .error failure => .error failure before := by
  rw [write, body]
  cases task.format with
  | json =>
      rfl
  | pretty =>
      dsimp only
      rw [Action.runFrom_bind]
      cases inputs.sourceText task.source with
      | ok source =>
          rfl
      | error failure =>
          rfl

/-- The names are logged, and then put out if the source can be read. -/
theorem runFrom_encodeNames
    (task : EncodeTask) (inputs : Inputs) (records : List NameRecord) :
    (task.encodeNames inputs records).runFrom (.upTo .trace) {} =
      match task.body inputs (task.collection records).highlights with
      | .ok text =>
          .ok ()
            ⟨text ++ "\n",
              task.workLog records ++
                [.encoded (task.collection records).highlights.length]⟩
      | .error failure => .error failure ⟨"", task.workLog records⟩ := by
  rw [encodeNames, Action.runFrom_bind, Action.runFrom_note,
    Threshold.shown_trace]
  dsimp only
  rw [Action.runFrom_bind, Action.runFrom_noteAll, Threshold.shown_trace]
  dsimp only
  rw [Action.runFrom_bind, runFrom_write]
  cases task.body inputs (task.collection records).highlights with
  | error failure =>
      rfl
  | ok text =>
      dsimp only
      rw [Action.runFrom_bind, Action.runFrom_put]
      dsimp only
      rw [Action.runFrom_note, Threshold.shown_trace, String.empty_append]
      rfl

theorem run_of_body_error
    {task : EncodeTask} {inputs : Inputs} {records : List NameRecord}
    {failure : Failure}
    (used : task.wastesSource ≠ true)
    (read : task.readNames inputs = .ok records)
    (failed :
      task.body inputs (task.collection records).highlights = .error failure)
    (threshold : Threshold) :
    task.run inputs threshold =
      ⟨"", threshold.shown (task.workLog records), some failure⟩ := by
  rw [run_eq_shown, run_of_readNames_ok used read, Action.outcome,
    runFrom_encodeNames, failed]
  rfl

theorem run_of_body_ok
    {task : EncodeTask} {inputs : Inputs} {records : List NameRecord}
    {text : String}
    (used : task.wastesSource ≠ true)
    (read : task.readNames inputs = .ok records)
    (written :
      task.body inputs (task.collection records).highlights = .ok text)
    (threshold : Threshold) :
    task.run inputs threshold =
      ⟨text ++ "\n",
        threshold.shown
          (task.workLog records ++
            [.encoded (task.collection records).highlights.length]),
        none⟩ := by
  rw [run_eq_shown, run_of_readNames_ok used read, Action.outcome,
    runFrom_encodeNames, written]
  rfl

end EncodeTask

end SemanticTokens
