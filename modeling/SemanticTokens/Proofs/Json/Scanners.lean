import SemanticTokens.Json.Number

/-!
# What scanners go through

A scan goes from state to state by the characters that it takes.  Whatever
every turn keeps holds where the scan ends, and a scan that ends in front of
something ends there whatever more is put behind the text.

A number is read in the stages in which it is skipped, so reading leaves what
skipping leaves.  Past the whole part, and once a digit did not fit, the number
is floating; a sign stays with it to the end.
-/

namespace SemanticTokens.Json

/-! ## Scans -/

section Turns

variable {σ τ : Type} {change : σ → τ} {turn : Turn σ}

theorem Turn.exists_of_map_eq_take
    {next : τ} (taken : turn.map change = .take next) :
    ∃ before, turn = .take before ∧ next = change before := by
  cases turn with
  | take before =>
      cases taken
      exact ⟨before, rfl, rfl⟩
  | leave =>
      cases taken
  | refuse =>
      cases taken

theorem Turn.eq_leave_of_map
    (left : turn.map change = .leave) :
    turn = .leave := by
  cases turn with
  | take before =>
      cases left
  | leave =>
      rfl
  | refuse =>
      cases left

end Turns

namespace Scanner

variable {σ α : Type} {scanner : Scanner σ α}
variable {state next : σ} {character : Char} {text rest : List Char} {value : α}

theorem scan_of_take
    (turn : scanner.turn state character = .take next) (text : List Char) :
    scanner.scan state (character :: text) = scanner.scan next text := by
  rw [scan, turn]

theorem scan_of_leave
    (turn : scanner.turn state character = .leave) (text : List Char) :
    scanner.scan state (character :: text) =
      scanner.finishAt state (character :: text) := by
  rw [scan, turn]

theorem scan_append
    (read : scanner.scan state text = .ok (value, rest))
    (remains : rest ≠ []) (more : List Char) :
    scanner.scan state (text ++ more) = .ok (value, rest ++ more) := by
  induction text generalizing state with
  | nil =>
      obtain ⟨_, atEnd⟩ := finishAt_eq_ok_iff.mp read
      exact (remains atEnd.symm).elim
  | cons character text inductionHypothesis =>
      rw [List.cons_append]
      cases turn : scanner.turn state character with
      | take next =>
          rw [scan_of_take turn] at read ⊢
          exact inductionHypothesis read
      | leave =>
          rw [scan_of_leave turn] at read ⊢
          obtain ⟨finished, same⟩ := finishAt_eq_ok_iff.mp read
          rw [← same]
          exact finishAt_eq_ok_iff.mpr ⟨finished, rfl⟩
      | refuse =>
          rw [scan, turn] at read
          cases read

/-- What every turn keeps holds of the state in which a scan ends. -/
theorem exists_finish_of_scan
    (Holds : σ → Prop)
    (kept : ∀ {state next : σ} {character : Char},
      Holds state → scanner.turn state character = .take next → Holds next)
    (holds : Holds state)
    (read : scanner.scan state text = .ok (value, rest)) :
    ∃ last, Holds last ∧ scanner.finish last = .ok value := by
  induction text generalizing state with
  | nil =>
      obtain ⟨finished, _⟩ := finishAt_eq_ok_iff.mp read
      exact ⟨state, holds, finished⟩
  | cons character text inductionHypothesis =>
      cases turn : scanner.turn state character with
      | take next =>
          rw [scan_of_take turn] at read
          exact inductionHypothesis (kept holds turn) read
      | leave =>
          rw [scan_of_leave turn] at read
          obtain ⟨finished, _⟩ := finishAt_eq_ok_iff.mp read
          exact ⟨state, holds, finished⟩
      | refuse =>
          rw [scan, turn] at read
          cases read

end Scanner

/-! ## Drafts of numbers -/

namespace NumberDraft

variable {draft next : NumberDraft} {character : Char} {text rest : List Char}
variable {stage : Stage} {number : Number}

theorem negative_addDigit
    (draft : NumberDraft) (fitting exceeding : Int) (digit : Char) :
    (draft.addDigit fitting exceeding digit).negative = draft.negative := by
  rw [addDigit]
  split <;> rfl

theorem isFull_addDigit
    (full : draft.isFull = true) (fitting exceeding : Int) (digit : Char) :
    (draft.addDigit fitting exceeding digit).isFull = true := by
  rw [addDigit, full, Bool.true_or]
  rfl

/-- A character that is taken leads to the stage that it leads to when skipped. -/
theorem exists_stage_of_turn
    (turn : draft.turn character = .take next) :
    ∃ stage, draft.stage.turn character = .take stage ∧
      next = draft.take character stage := by
  rw [NumberDraft.turn] at turn
  split at turn
  · cases turn
  · exact Turn.exists_of_map_eq_take turn

theorem stage_turn_of_leave
    (inRange : draft.isOutOfRange = false)
    (turn : draft.turn character = .leave) :
    draft.stage.turn character = .leave := by
  rw [NumberDraft.turn, inRange, if_neg Bool.false_ne_true] at turn
  exact Turn.eq_leave_of_map turn

theorem turn_of_take
    (inRange : draft.isOutOfRange = false)
    (turn : draft.stage.turn character = .take stage) :
    draft.turn character = .take (draft.take character stage) := by
  rw [NumberDraft.turn, inRange, if_neg Bool.false_ne_true, turn, Turn.map]

theorem finish_eq_ok
    (finished : draft.finish = .ok number) :
    draft.isOutOfRange = false ∧ draft.stage.isComplete = true ∧
      (draft.isInteger = true → number = draft.integer) ∧
      (draft.isInteger = false →
        ∃ magnitude, number = .floating draft.negative magnitude) := by
  rw [finish] at finished
  split at finished
  · cases finished
  · rename_i inRange
    split at finished
    · cases finished
    · rename_i complete
      refine ⟨Bool.eq_false_iff.mpr inRange, by simpa using complete, ?_⟩
      split at finished
      · rename_i isInteger
        cases finished
        exact ⟨fun _ => rfl, fun noInteger => by
          rw [noInteger] at isInteger
          cases isInteger⟩
      · rename_i noInteger
        split at finished
        · cases finished
          exact ⟨fun isInteger => (noInteger isInteger).elim,
            fun _ => ⟨_, rfl⟩⟩
        · cases finished

/-- Reading leaves what skipping leaves. -/
theorem scan_stage_of_scan
    (read : scanner.scan draft text = .ok (number, rest)) :
    Stage.scanner.scan draft.stage text = .ok ((), rest) := by
  have ends {draft : NumberDraft} {place : List Char}
      (ended : scanner.finishAt draft place = .ok (number, rest)) :
      draft.isOutOfRange = false ∧
        Stage.scanner.finishAt draft.stage place = .ok ((), rest) := by
    obtain ⟨finished, same⟩ := Scanner.finishAt_eq_ok_iff.mp ended
    obtain ⟨inRange, complete, _⟩ := finish_eq_ok finished
    refine ⟨inRange, Scanner.finishAt_eq_ok_iff.mpr ⟨?_, same⟩⟩
    exact if_pos complete
  induction text generalizing draft with
  | nil =>
      exact (ends read).2
  | cons character text inductionHypothesis =>
      cases turn : scanner.turn draft character with
      | take next =>
          rw [Scanner.scan_of_take turn] at read
          have skipped := inductionHypothesis read
          obtain ⟨stage, stageTurn, rfl⟩ := exists_stage_of_turn turn
          change Stage.scanner.scan stage text = _ at skipped
          rw [Scanner.scan_of_take stageTurn]
          exact skipped
      | leave =>
          rw [Scanner.scan_of_leave turn] at read
          obtain ⟨inRange, ended⟩ := ends read
          rw [Scanner.scan_of_leave (stage_turn_of_leave inRange turn)]
          exact ended
      | refuse =>
          rw [Scanner.scan, turn] at read
          cases read

end NumberDraft

/-! ## Floating and negative numbers -/

def Stage.isPastWhole : Stage → Bool
  | .point | .fraction | .mark | .exponentSign | .exponent => true
  | .start | .minus | .zero | .whole => false

/-- The whole part is behind for good. -/
theorem Stage.isPastWhole_of_turn
    {stage next : Stage} {character : Char}
    (past : stage.isPastWhole = true)
    (turn : stage.turn character = .take next) :
    next.isPastWhole = true := by
  cases stage with
  | start | minus | zero | whole =>
      cases past
  | point | fraction | mark | exponentSign | exponent =>
      simp only [Stage.turn, Stage.afterFraction] at turn
      repeat' split at turn
      all_goals cases turn <;> rfl

namespace NumberDraft

variable {draft next : NumberDraft} {character : Char} {text rest : List Char}

/-- No integer comes of the draft, whatever follows. -/
def Floats (draft : NumberDraft) : Prop :=
  draft.stage.isPastWhole = true ∨ draft.isFull = true

theorem Floats.turn
    (floats : draft.Floats) (turn : draft.turn character = .take next) :
    next.Floats := by
  obtain ⟨stage, stageTurn, rfl⟩ := exists_stage_of_turn turn
  rcases floats with past | full
  · left
    exact Stage.isPastWhole_of_turn past stageTurn
  · cases stage with
    | point | fraction | mark | exponentSign | exponent =>
        exact .inl rfl
    | start | minus | zero =>
        exact .inr full
    | whole =>
        exact .inr (isFull_addDigit full 0 1 character)

theorem Floats.isInteger_eq_false
    (floats : draft.Floats) :
    draft.isInteger = false := by
  rw [isInteger]
  rcases floats with past | full
  · have noZero : draft.stage ≠ .zero := by
      intro isZero
      rw [isZero] at past
      cases past
    have noWhole : draft.stage ≠ .whole := by
      intro isWhole
      rw [isWhole] at past
      cases past
    rw [decide_eq_false noZero, decide_eq_false noWhole, Bool.or_false,
      Bool.false_and]
  · rw [full, Bool.not_true, Bool.and_false]

theorem Floats.scan_ne_integer
    (floats : draft.Floats) (value : Int) :
    scanner.scan draft text ≠ .ok (.integer value, rest) := by
  intro read
  obtain ⟨last, lastFloats, finished⟩ :=
    Scanner.exists_finish_of_scan Floats Floats.turn floats read
  obtain ⟨_, _, _, floating⟩ := finish_eq_ok finished
  obtain ⟨magnitude, isFloating⟩ := floating lastFloats.isInteger_eq_false
  cases isFloating

theorem negative_of_turn
    (negative : draft.negative = true)
    (turn : draft.turn character = .take next) :
    next.negative = true := by
  obtain ⟨stage, _, rfl⟩ := exists_stage_of_turn turn
  cases stage <;> simp only [take, gather, negative_addDigit, negative]

/-- Negative zero is floating, so a sign leaves only integers below zero. -/
theorem integer_neg_of_scan
    {value : Int} (negative : draft.negative = true)
    (read : scanner.scan draft text = .ok (.integer value, rest)) :
    value < 0 := by
  obtain ⟨last, stillNegative, finished⟩ :=
    Scanner.exists_finish_of_scan (·.negative = true) negative_of_turn negative
      read
  obtain ⟨_, _, ofInteger, floating⟩ := finish_eq_ok finished
  cases isInteger : last.isInteger with
  | false =>
      obtain ⟨magnitude, isFloating⟩ := floating isInteger
      cases isFloating
  | true =>
      have amount := ofInteger isInteger
      rw [integer, stillNegative, if_neg (by decide)] at amount
      split at amount
      · cases amount
      · rename_i notZero
        rw [Number.integer.injEq] at amount
        simp only [Bool.or_eq_true, decide_eq_true_eq, not_or] at notZero
        omega

end NumberDraft

end SemanticTokens.Json
