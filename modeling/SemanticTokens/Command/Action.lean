import SemanticTokens.Failure
import SemanticTokens.Log

/-!
# Actions

An action is a piece of work that puts out text and logs records as it goes,
and then either yields a value or fails.  What it has put out by the time it
fails stays put out.  A record is logged or dropped when it is noted, as the
level of detail has it that the action runs at.
-/

namespace SemanticTokens

/-- What has been put out and logged so far. -/
@[ext]
structure Progress where
  output : String := ""
  log : List LogRecord := []
  deriving DecidableEq, Repr

abbrev Action :=
  ReaderT Threshold (EStateM Failure Progress)

namespace Action

def put (text : String) : Action Unit :=
  modify fun progress => { progress with output := progress.output ++ text }

/-- Logs a record, unless the level of detail drops it. -/
def note (record : LogRecord) : Action Unit := do
  if (← read).passes record.level then
    modify fun progress => { progress with log := progress.log ++ [record] }

def noteAll : List LogRecord → Action Unit
  | [] => return
  | record :: rest => do
      note record
      noteAll rest

/-- Goes on with a result, if there is one. -/
def ofExcept (result : Except Failure α) : Action α :=
  match result with
  | .ok value => return value
  | .error failure => throw failure

/-- Carries an action out that has got somewhere already. -/
def runFrom (action : Action α) (threshold : Threshold) (before : Progress) :
    EStateM.Result Failure Progress α :=
  (action.run threshold).run before

end Action

/-- What an action comes to that starts from nothing. -/
structure Outcome where
  output : String
  /-- The records that were not dropped. -/
  log : List LogRecord
  failure? : Option Failure
  deriving DecidableEq, Repr

def Outcome.ofResult : EStateM.Result Failure Progress Unit → Outcome
  | .ok _ progress => ⟨progress.output, progress.log, none⟩
  | .error failure progress => ⟨progress.output, progress.log, some failure⟩

def Action.outcome (action : Action Unit) (threshold : Threshold) : Outcome :=
  .ofResult (action.runFrom threshold {})

end SemanticTokens
