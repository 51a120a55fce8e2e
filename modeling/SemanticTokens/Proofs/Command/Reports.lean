import SemanticTokens.Proofs.Command.Failures

/-!
# Reports of the encoding command

A run depends on nothing but what its task reads, and a task with a source that
it does not use reads nothing.  The report of a call shows how the run ends: by
the exit code, by the output, which is whole or empty, and by the failure after
the log.
-/

namespace SemanticTokens

namespace EncodeTask

/-! ## What a run reads -/

end EncodeTask

theorem Outcome.exitCode_report_eq_zero_iff
    (outcome : Outcome) (display : Display) :
    (outcome.report display).exitCode = 0 ↔ outcome.failure? = none := by
  rw [report]
  cases outcome.failure? with
  | none =>
      exact iff_of_true rfl rfl
  | some failure =>
      exact iff_of_false Nat.one_ne_zero (Option.some_ne_none failure)

namespace Call

theorem run_of_parse
    {call : Call} {threshold : Threshold} {task : EncodeTask}
    (parsed : parse call.words call.logLevel = .ok ⟨threshold, .encode task⟩)
    (inputs : Inputs) (elapsed : String) :
    call.run inputs elapsed =
      .ok
        ((task.run inputs threshold).report ⟨call.colored, elapsed⟩) := by
  rw [run, parsed]
  rfl

end Call

end SemanticTokens
