import Mathlib.Data.Nat.Find
import SemanticTokens.Occurrence

/-!
# How the inference of a category ends

The kinds of a name form a chain: the reported kind, then the best candidate of
each inference.  Only statements are followed.  The first kind of the chain that
is no statement decides the category; if the chain ends before there is one, or
the limit is reached, there is none.  These are all the ways to end, and each
makes no more inferences than the limit allows.
-/

namespace SemanticTokens.Occurrence

/-- The kind of a name after a number of inferences, if they yield one. -/
def kindAfter? (occurrence : Occurrence) : Nat → Option String
  | 0 => some occurrence.kind
  | inferences + 1 => (occurrence.infer inferences).head?

def IsStatementAfter (occurrence : Occurrence) (inferences : Nat) : Prop :=
  occurrence.kindAfter? inferences = some statementKind

instance (occurrence : Occurrence) (inferences : Nat) :
    Decidable (occurrence.IsStatementAfter inferences) :=
  inferInstanceAs (Decidable (_ = _))

/-- How the inference of a category ends within a limit, and with what. -/
inductive InferenceEnds (occurrence : Occurrence) (limit : Nat) :
    Categorization → Prop
  /-- A kind that is no statement decides. -/
  | decided {inferences : Nat} {kind : String}
      (statements : ∀ earlier < inferences, occurrence.IsStatementAfter earlier)
      (reached : occurrence.kindAfter? inferences = some kind)
      (definite : kind ≠ statementKind)
      (within : inferences ≤ limit) :
      InferenceEnds occurrence limit ⟨Category.ofKind? kind, inferences, []⟩
  /-- An inference yields no kind. -/
  | noCandidate {inferences : Nat}
      (statements : ∀ earlier ≤ inferences, occurrence.IsStatementAfter earlier)
      (nothing : occurrence.infer inferences = [])
      (within : inferences < limit) :
      InferenceEnds occurrence limit ⟨none, inferences + 1, []⟩
  | limitReached
      (statements : ∀ earlier ≤ limit, occurrence.IsStatementAfter earlier) :
      InferenceEnds occurrence limit
        ⟨none, limit, [.inferenceLimitReached occurrence.text limit]⟩

theorem InferenceEnds.calls_le
    {occurrence : Occurrence} {limit : Nat} {result : Categorization}
    (ends : occurrence.InferenceEnds limit result) :
    result.calls ≤ limit := by
  cases ends with
  | decided _ _ _ within =>
      exact within
  | noCandidate _ _ within =>
      exact within
  | limitReached _ =>
      exact Nat.le_refl limit

/-! ## One step -/

theorem follow_of_ne_statementKind
    (occurrence : Occurrence) {kind : String}
    (definite : kind ≠ statementKind) (steps remaining : Nat) :
    occurrence.follow steps remaining kind =
      ⟨Category.ofKind? kind, steps, []⟩ := by
  cases remaining <;> rw [follow, if_neg definite]

theorem follow_statementKind_zero
    (occurrence : Occurrence) (steps : Nat) :
    occurrence.follow steps 0 statementKind =
      ⟨none, steps, [.inferenceLimitReached occurrence.text steps]⟩ := by
  rw [follow, if_pos rfl]

theorem follow_statementKind_succ_of_none
    {occurrence : Occurrence} {steps : Nat}
    (nothing : occurrence.kindAfter? (steps + 1) = none) (remaining : Nat) :
    occurrence.follow steps (remaining + 1) statementKind =
      ⟨none, steps + 1, []⟩ := by
  rw [kindAfter?] at nothing
  rw [follow, if_pos rfl, nothing]

theorem follow_statementKind_succ_of_some
    {occurrence : Occurrence} {steps : Nat} {next : String}
    (reached : occurrence.kindAfter? (steps + 1) = some next)
    (remaining : Nat) :
    occurrence.follow steps (remaining + 1) statementKind =
      occurrence.follow (steps + 1) remaining next := by
  rw [kindAfter?] at reached
  rw [follow, if_pos rfl, reached]

/-! ## Many steps -/

/-- Statements are followed, one inference each, to the kind behind them. -/
theorem categorize_add_of_statements
    {occurrence : Occurrence} {inferences : Nat} {kind : String}
    (statements : ∀ earlier < inferences, occurrence.IsStatementAfter earlier)
    (reached : occurrence.kindAfter? inferences = some kind)
    (remaining : Nat) :
    occurrence.categorize (inferences + remaining) =
      occurrence.follow inferences remaining kind := by
  induction inferences generalizing kind remaining with
  | zero =>
      rw [kindAfter?, Option.some.injEq] at reached
      rw [categorize, Nat.zero_add, reached]
  | succ inferences inductionHypothesis =>
      have before :=
        inductionHypothesis
          (fun earlier lower => statements earlier (Nat.lt_succ_of_lt lower))
          (statements inferences (Nat.lt_succ_self inferences))
          (remaining + 1)
      rw [Nat.succ_add_eq_add_succ, before,
        follow_statementKind_succ_of_some reached]

theorem categorize_eq_of_inferenceEnds
    {occurrence : Occurrence} {limit : Nat} {result : Categorization}
    (ends : occurrence.InferenceEnds limit result) :
    occurrence.categorize limit = result := by
  cases ends with
  | decided statements reached definite within =>
      obtain ⟨remaining, rfl⟩ := Nat.exists_eq_add_of_le within
      rw [categorize_add_of_statements statements reached,
        follow_of_ne_statementKind occurrence definite]
  | @noCandidate inferences statements nothing within =>
      obtain ⟨remaining, rfl⟩ := Nat.exists_eq_add_of_lt within
      have noKind : occurrence.kindAfter? (inferences + 1) = none := by
        rw [kindAfter?, nothing, List.head?_nil]
      rw [Nat.add_assoc,
        categorize_add_of_statements
          (fun earlier lower => statements earlier (Nat.le_of_lt lower))
          (statements inferences (Nat.le_refl inferences)),
        follow_statementKind_succ_of_none noKind]
  | limitReached statements =>
      have whole :=
        categorize_add_of_statements
          (fun earlier lower => statements earlier (Nat.le_of_lt lower))
          (statements limit (Nat.le_refl limit)) 0
      rw [Nat.add_zero] at whole
      rw [whole, follow_statementKind_zero]

/-! ## All ways to end -/

theorem exists_inferenceEnds
    (occurrence : Occurrence) (limit : Nat) :
    ∃ result, occurrence.InferenceEnds limit result := by
  by_cases leaves :
      ∃ inferences,
        inferences ≤ limit ∧ ¬ occurrence.IsStatementAfter inferences
  · -- The first kind of the chain that is no statement decides how it ends.
    obtain ⟨within, noStatement⟩ := Nat.find_spec leaves
    have statements :
        ∀ earlier < Nat.find leaves, occurrence.IsStatementAfter earlier := by
      intro earlier lower
      apply Decidable.byContradiction
      intro otherKind
      exact
        Nat.find_min leaves lower
          ⟨Nat.le_trans (Nat.le_of_lt lower) within, otherKind⟩
    cases reached : occurrence.kindAfter? (Nat.find leaves) with
    | some kind =>
        have definite : kind ≠ statementKind := by
          rintro rfl
          exact noStatement reached
        exact ⟨_, .decided statements reached definite within⟩
    | none =>
        -- The reported kind is always there, so that an inference came before.
        cases first : Nat.find leaves with
        | zero =>
            rw [first, kindAfter?] at reached
            cases reached
        | succ inferences =>
            rw [first] at reached statements within
            exact
              ⟨_, .noCandidate
                (fun earlier lower =>
                  statements earlier (Nat.lt_succ_of_le lower))
                (List.head?_eq_none_iff.mp reached) within⟩
  · refine ⟨_, .limitReached ?_⟩
    intro earlier within
    apply Decidable.byContradiction
    intro otherKind
    exact leaves ⟨earlier, within, otherKind⟩

/-- The category of a name, the number of inferences made for it and the log
are those of the one way in which its inference ends, and no more inferences are
made than the limit allows. -/
theorem categorize_eq_iff_inferenceEnds
    (occurrence : Occurrence) (limit : Nat) :
    (∀ result,
        occurrence.categorize limit = result ↔
          occurrence.InferenceEnds limit result) ∧
      (occurrence.categorize limit).calls ≤ limit := by
  obtain ⟨result, ends⟩ := occurrence.exists_inferenceEnds limit
  have same : occurrence.categorize limit = result :=
    categorize_eq_of_inferenceEnds ends
  constructor
  · intro other
    constructor
    · intro sameOther
      rwa [← sameOther, same]
    · exact categorize_eq_of_inferenceEnds
  · rw [same]
    exact ends.calls_le

end SemanticTokens.Occurrence
