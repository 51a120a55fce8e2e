import SemanticTokens.Proofs.Command.Readable
import SemanticTokens.Proofs.Command.Runs
import SemanticTokens.Proofs.NameRecord.RoundTrip

/-!
# How a run of the encoding command ends

Four causes make a run fail.  More than one of them may apply, and the run
reports the first in a fixed order.  Each cause is described by the contents of
the inputs, without the steps of a run, and so is the output of a run to which
no cause applies.
-/

namespace SemanticTokens

namespace FailureCause

end FailureCause

namespace EncodeTask

theorem readNames_of_readable
    {task : EncodeTask} {inputs : Inputs} {text : String}
    {records : List NameRecord}
    (readable : Readable (inputs.content task.input) text)
    (wellFormed : NameRecord.readAll text.toList = .ok records) :
    task.readNames inputs = .ok records := by
  rw [readNames, Inputs.inputText_of_readable readable]
  dsimp only
  rw [wellFormed]

theorem readNames_of_unreadable
    {task : EncodeTask} {inputs : Inputs} {reason : ReadFailure}
    (unreadable : Unreadable (inputs.content task.input) reason) :
    task.readNames inputs =
      .error
        ⟨.input, reason.text,
          if FilePath.isStandardInput task.input then none
          else some task.input⟩ := by
  rw [readNames, Inputs.inputText_of_unreadable unreadable]

theorem readNames_of_malformed
    {task : EncodeTask} {inputs : Inputs} {text : String}
    {fault : Json.Fault}
    (readable : Readable (inputs.content task.input) text)
    (malformed : NameRecord.readAll text.toList = .error fault) :
    task.readNames inputs =
      .error ⟨.parse, fault.message text.toList, some task.input⟩ := by
  rw [readNames, Inputs.inputText_of_readable readable]
  dsimp only
  rw [malformed]
  rfl

/-- The printed text of a list of records is well-formed. -/
theorem readNames_of_printed
    {task : EncodeTask} {inputs : Inputs} {records : List NameRecord}
    (printed :
      Readable (inputs.content task.input) (NameRecord.printAll records)) :
    task.readNames inputs = .ok records :=
  readNames_of_readable printed
    (NameRecord.readAll_of_isForm (NameRecord.isForm_printAll records))

theorem exists_readable_of_readNames
    {task : EncodeTask} {inputs : Inputs} {records : List NameRecord}
    (read : task.readNames inputs = .ok records) :
    ∃ text,
      Readable (inputs.content task.input) text ∧
        NameRecord.readAll text.toList = .ok records := by
  rcases Inputs.readable_or_unreadable (inputs.content task.input) with
    ⟨text, readable⟩ | ⟨reason, unreadable⟩
  · refine ⟨text, readable, ?_⟩
    rw [readNames, Inputs.inputText_of_readable readable] at read
    dsimp only at read
    cases outcome : NameRecord.readAll text.toList with
    | error fault =>
        rw [outcome] at read
        cases read
    | ok others =>
        rw [outcome] at read
        rw [Except.ok.inj read]
  · rw [readNames, Inputs.inputText_of_unreadable unreadable] at read
    cases read

/-! ## Endings -/

section Endings

variable {task : EncodeTask} {inputs : Inputs} (threshold : Threshold)

end Endings

end EncodeTask

end SemanticTokens
