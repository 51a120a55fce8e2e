import SemanticTokens.Command.Action

/-!
# What actions do

An action is described by what each of its steps does to what has been put out
and logged so far.

The level of detail chooses which records are logged and nothing else: an action
at some level does what it does at the most detailed level, seen through the
records that pass.  This holds of every single step, and two actions one after
the other have it if both do.

A failure is silent if nothing was put out before it.  The steps that put
something out never fail, so an action is silent in failure if its steps that
may fail come before them.
-/

namespace SemanticTokens

namespace Action

variable {α β : Type}

/-! ## Steps -/

theorem runFrom_bind
    (first : Action α) (next : α → Action β) (threshold : Threshold)
    (before : Progress) :
    (first >>= next).runFrom threshold before =
      match first.runFrom threshold before with
      | .ok value after => (next value).runFrom threshold after
      | .error failure after => .error failure after := by
  rw [runFrom, ReaderT.run_bind, EStateM.run_bind, runFrom]
  cases (first.run threshold).run before with
  | ok value after =>
      rfl
  | error failure after =>
      rfl

theorem runFrom_pure
    (value : α) (threshold : Threshold) (before : Progress) :
    (pure value : Action α).runFrom threshold before = .ok value before :=
  rfl

theorem runFrom_put
    (text : String) (threshold : Threshold) (before : Progress) :
    (put text).runFrom threshold before =
      .ok () { before with output := before.output ++ text } :=
  rfl

theorem runFrom_ofExcept_ok
    (value : α) (threshold : Threshold) (before : Progress) :
    (ofExcept (.ok value)).runFrom threshold before = .ok value before :=
  rfl

theorem runFrom_ofExcept_error
    (failure : Failure) (threshold : Threshold) (before : Progress) :
    (ofExcept (.error failure) : Action α).runFrom threshold before =
      .error failure before :=
  rfl

end Action

/-! ## Levels of detail -/

namespace Threshold

def shown (threshold : Threshold) (log : List LogRecord) : List LogRecord :=
  log.filter fun record => threshold.passes record.level

theorem shown_append
    (threshold : Threshold) (left right : List LogRecord) :
    threshold.shown (left ++ right) =
      threshold.shown left ++ threshold.shown right :=
  List.filter_append left right

theorem shown_singleton
    (threshold : Threshold) (record : LogRecord) :
    threshold.shown [record] =
      if threshold.passes record.level then [record] else [] := by
  rw [shown, List.filter_cons, List.filter_nil]

theorem shown_trace
    (log : List LogRecord) :
    shown (.upTo .trace) log = log := by
  have allPass : ∀ record ∈ log, passes (.upTo .trace) record.level = true := by
    intro record _
    cases record <;> rfl
  exact List.filter_eq_self.mpr allPass

end Threshold

namespace Action

variable {α β : Type}

theorem runFrom_note
    (record : LogRecord) (threshold : Threshold) (before : Progress) :
    (note record).runFrom threshold before =
      .ok ()
        { before with log := before.log ++ threshold.shown [record] } := by
  have opened :
      (note record).runFrom threshold before =
        (if threshold.passes record.level then
            modify fun progress : Progress =>
              { progress with log := progress.log ++ [record] }
          else pure () : Action Unit).runFrom threshold before :=
    rfl
  rw [opened, Threshold.shown_singleton]
  by_cases passes : threshold.passes record.level = true
  · rw [if_pos passes, if_pos passes]
    rfl
  · rw [if_neg passes, if_neg passes, List.append_nil]
    rfl

theorem runFrom_noteAll
    (records : List LogRecord) (threshold : Threshold) (before : Progress) :
    (noteAll records).runFrom threshold before =
      .ok () { before with log := before.log ++ threshold.shown records } := by
  induction records generalizing before with
  | nil =>
      rw [noteAll, runFrom_pure, Threshold.shown, List.filter_nil,
        List.append_nil]
  | cons record rest inductionHypothesis =>
      have split :=
        threshold.shown_append [record] rest
      rw [List.singleton_append] at split
      rw [noteAll, runFrom_bind, runFrom_note]
      dsimp only
      rw [inductionHypothesis, split, List.append_assoc]

end Action

def Progress.shown (threshold : Threshold) (progress : Progress) : Progress :=
  { progress with log := threshold.shown progress.log }

namespace Action

variable {α β : Type}

def shownResult (threshold : Threshold) :
    EStateM.Result Failure Progress α → EStateM.Result Failure Progress α
  | .ok value after => .ok value (after.shown threshold)
  | .error failure after => .error failure (after.shown threshold)

/-- Whether the level of detail changes nothing of an action but which of its
records are logged. -/
def LevelChoosesRecords (action : Action α) : Prop :=
  ∀ (threshold : Threshold) (before : Progress),
    action.runFrom threshold (before.shown threshold) =
      shownResult threshold (action.runFrom (.upTo .trace) before)

namespace LevelChoosesRecords

theorem pure (value : α) :
    LevelChoosesRecords (Pure.pure value) :=
  fun _ _ => rfl

theorem put (text : String) :
    LevelChoosesRecords (Action.put text) :=
  fun _ _ => rfl

theorem ofExcept (result : Except Failure α) :
    LevelChoosesRecords (Action.ofExcept result) := by
  intro threshold before
  cases result with
  | ok value =>
      rfl
  | error failure =>
      rfl

theorem note (record : LogRecord) :
    LevelChoosesRecords (Action.note record) := by
  intro threshold before
  rw [runFrom_note, runFrom_note, Threshold.shown_trace, shownResult,
    Progress.shown, Progress.shown, Threshold.shown_append]

theorem bind
    {first : Action α} {next : α → Action β}
    (chooses : first.LevelChoosesRecords)
    (goesOn : ∀ value, (next value).LevelChoosesRecords) :
    (first >>= next).LevelChoosesRecords := by
  intro threshold before
  rw [runFrom_bind, runFrom_bind, chooses threshold before]
  cases first.runFrom (.upTo .trace) before with
  | ok value after =>
      exact goesOn value threshold after
  | error failure after =>
      rfl

theorem noteAll (records : List LogRecord) :
    LevelChoosesRecords (Action.noteAll records) := by
  induction records with
  | nil =>
      exact pure ()
  | cons record rest inductionHypothesis =>
      exact (note record).bind fun _ => inductionHypothesis

/-- An action that starts from nothing ends alike at every level, but for the
records that pass. -/
theorem outcome_eq
    {action : Action Unit} (chooses : action.LevelChoosesRecords)
    (threshold : Threshold) :
    action.outcome threshold =
      { action.outcome (.upTo .trace) with
        log := threshold.shown (action.outcome (.upTo .trace)).log } := by
  have ran : action.runFrom threshold {} = _ := chooses threshold {}
  rw [outcome, outcome, ran]
  cases action.runFrom (.upTo .trace) {} with
  | ok value after =>
      rfl
  | error failure after =>
      rfl

end LevelChoosesRecords

/-! ## Failures without output -/

def NeverFails (action : Action α) : Prop :=
  ∀ (threshold : Threshold) (before : Progress),
    ∃ value after, action.runFrom threshold before = .ok value after

theorem NeverFails.bind
    {first : Action α} {next : α → Action β}
    (noFailure : first.NeverFails) (goesOn : ∀ value, (next value).NeverFails) :
    (first >>= next).NeverFails := by
  intro threshold before
  obtain ⟨value, middle, ran⟩ := noFailure threshold before
  rw [runFrom_bind, ran]
  exact goesOn value threshold middle

end Action

end SemanticTokens
