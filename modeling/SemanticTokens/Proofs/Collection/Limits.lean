import SemanticTokens.NameRecord.Printer
import SemanticTokens.Proofs.Collection.Skips
import SemanticTokens.Proofs.Occurrence.Inference

/-!
# Collections within different limits

A limit only ever cuts an inference short.  A category that is found within a
limit is found by the same inferences within any larger one, and nothing is
logged on the way.

Where every inference yields the same kinds, as for a name record, the second
one tells nothing that the first one has not.  So one inference is as good as
any larger number of them, and the limit shows nowhere but in the records of
names for which it is reached.
-/

namespace SemanticTokens

/-- Whether two records are the same, or tell of one name that each of two
limits has been reached. -/
inductive LogRecord.SameButLimit (left right : Nat) :
    LogRecord → LogRecord → Prop
  | same (record : LogRecord) : SameButLimit left right record record
  | limitReached (name : String) :
      SameButLimit left right
        (.inferenceLimitReached name left) (.inferenceLimitReached name right)

namespace Occurrence

open LogRecord

/-- A category found within a limit is found within any larger one, by the same
inferences and with nothing logged. -/
theorem categorize_eq_of_limit_le
    {occurrence : Occurrence} {limit larger : Nat} {category : Category}
    (found : (occurrence.categorize limit).category = some category)
    (within : limit ≤ larger) :
    occurrence.categorize larger =
      ⟨some category, (occurrence.categorize limit).calls, []⟩ := by
  obtain ⟨result, ends⟩ := occurrence.exists_inferenceEnds limit
  rw [categorize_eq_of_inferenceEnds ends] at found ⊢
  cases ends with
  | decided statements reached definite inferred =>
      rw [← found]
      exact
        categorize_eq_of_inferenceEnds
          (.decided statements reached definite
            (Nat.le_trans inferred within))
  | noCandidate | limitReached =>
      cases found

/-! ## Names whose inferences are all alike -/

/-- Whether every inference for a name yields the same kinds. -/
def InfersAlike (occurrence : Occurrence) : Prop :=
  ∀ inference, occurrence.infer inference = occurrence.infer 0

section Alike

variable {occurrence : Occurrence} (alike : occurrence.InfersAlike)
include alike

theorem isStatementAfter_succ_iff
    (inferences : Nat) :
    occurrence.IsStatementAfter (inferences + 1) ↔
      (occurrence.infer 0).head? = some statementKind := by
  rw [IsStatementAfter, kindAfter?, alike]

/-- A name that is still a statement after one inference stays one. -/
theorem isStatementAfter_of_one
    (reported : occurrence.IsStatementAfter 0)
    (inferred : occurrence.IsStatementAfter 1) (inferences : Nat) :
    occurrence.IsStatementAfter inferences := by
  cases inferences with
  | zero =>
      exact reported
  | succ inferences =>
      rw [isStatementAfter_succ_iff alike] at inferred ⊢
      exact inferred

/-- An inference that leads to a kind other than a statement is the first
one. -/
theorem le_one_of_decided
    {inferences : Nat} {kind : String}
    (statements : ∀ earlier < inferences, occurrence.IsStatementAfter earlier)
    (reached : occurrence.kindAfter? inferences = some kind)
    (definite : kind ≠ statementKind) :
    inferences ≤ 1 := by
  apply Nat.le_of_not_lt
  intro several
  have stillStatement : occurrence.IsStatementAfter inferences :=
    isStatementAfter_of_one alike
      (statements 0 (Nat.lt_trans Nat.one_pos several))
      (statements 1 several) inferences
  rw [IsStatementAfter, reached, Option.some.injEq] at stillStatement
  exact definite stillStatement

/-- An inference that yields no kind is the first one. -/
theorem eq_zero_of_noCandidate
    {inferences : Nat}
    (statements : ∀ earlier ≤ inferences, occurrence.IsStatementAfter earlier)
    (nothing : occurrence.infer inferences = []) :
    inferences = 0 := by
  cases inferences with
  | zero =>
      rfl
  | succ inferences =>
      have stillStatement := statements (inferences + 1) (Nat.le_refl _)
      rw [alike] at nothing
      rw [isStatementAfter_succ_iff alike, nothing] at stillStatement
      cases stillStatement

/-- Within limits that allow an inference, the category is the same, and so is
the log but for a limit that is reached. -/
theorem categorize_alike
    {limit other : Nat} (allowed : 1 ≤ limit) (otherAllowed : 1 ≤ other) :
    (occurrence.categorize limit).category =
        (occurrence.categorize other).category ∧
      List.Forall₂ (SameButLimit limit other)
        (occurrence.categorize limit).log
        (occurrence.categorize other).log := by
  obtain ⟨result, ends⟩ := occurrence.exists_inferenceEnds limit
  rw [categorize_eq_of_inferenceEnds ends]
  cases ends with
  | decided statements reached definite within =>
      have first := le_one_of_decided alike statements reached definite
      rw [categorize_eq_of_inferenceEnds
        (.decided statements reached definite
          (Nat.le_trans first otherAllowed))]
      exact ⟨rfl, .nil⟩
  | noCandidate statements nothing within =>
      have first := eq_zero_of_noCandidate alike statements nothing
      subst first
      rw [categorize_eq_of_inferenceEnds
        (.noCandidate statements nothing otherAllowed)]
      exact ⟨rfl, .nil⟩
  | limitReached statements =>
      have always :=
        isStatementAfter_of_one alike (statements 0 (Nat.zero_le limit))
          (statements 1 allowed)
      rw [categorize_eq_of_inferenceEnds
        (.limitReached fun earlier _ => always earlier)]
      exact ⟨rfl, .cons (.limitReached occurrence.text) .nil⟩

end Alike

/-- The examination of a name depends on the limit only through what is found
and logged within it. -/
theorem examine_with_limit
    {occurrence : Occurrence} {policy : CollectionPolicy} {limit other : Nat}
    {relation : LogRecord → LogRecord → Prop}
    (same : ∀ record, relation record record)
    (sameCategory :
      (occurrence.categorize limit).category =
        (occurrence.categorize other).category)
    (related :
      List.Forall₂ relation (occurrence.categorize limit).log
        (occurrence.categorize other).log) :
    (occurrence.examine
          { policy with inferenceLimit := limit }).highlight =
        (occurrence.examine
          { policy with inferenceLimit := other }).highlight ∧
      List.Forall₂ relation
        (occurrence.examine { policy with inferenceLimit := limit }).log
        (occurrence.examine { policy with inferenceLimit := other }).log := by
  rw [examine, examine]
  cases occurrence.position? with
  | none =>
      exact ⟨rfl, .cons (same _) .nil⟩
  | some position =>
      generalize occurrence.categorize limit = left at sameCategory related ⊢
      generalize occurrence.categorize other = right at sameCategory related ⊢
      cases left with
      | mk category leftCalls leftLog =>
          cases right with
          | mk rightCategory rightCalls rightLog =>
              cases sameCategory
              cases category with
              | none =>
                  exact
                    ⟨rfl, List.rel_append related (.cons (same _) .nil)⟩
              | some category =>
                  dsimp only
                  by_cases empty :
                      policy.unit.measure occurrence.text.toList = 0
                  · rw [if_pos empty, if_pos empty]
                    exact
                      ⟨rfl, List.rel_append related (.cons (same _) .nil)⟩
                  · rw [if_neg empty, if_neg empty]
                    exact ⟨rfl, related⟩

end Occurrence

namespace Collection

open LogRecord

theorem highlights_eq_of_examine
    {left right : CollectionPolicy} {occurrences : List Occurrence}
    (sameOrder : left.sortsByPosition = right.sortsByPosition)
    (sameHighlights :
      ∀ occurrence ∈ occurrences,
        (occurrence.examine left).highlight =
          (occurrence.examine right).highlight) :
    (ofOccurrences occurrences left).highlights =
      (ofOccurrences occurrences right).highlights := by
  have sameEmitted :
      emitted left occurrences = emitted right occurrences :=
    List.filterMap_congr sameHighlights
  cases sorts : right.sortsByPosition with
  | true =>
      rw [highlights_of_sorts occurrences (sameOrder.trans sorts),
        highlights_of_sorts occurrences sorts, sameEmitted]
  | false =>
      rw [highlights_of_not_sorts occurrences (sameOrder.trans sorts),
        highlights_of_not_sorts occurrences sorts, sameEmitted]

/-- A category that is found within a limit is found within any larger one, by
as many inferences and without a record.  For name records any two limits that
allow an inference lead to the same highlights, and to the same log but for the
limits that it tells. -/
theorem larger_limits_keep_what_is_found :
    (∀ (occurrence : Occurrence) (limit larger : Nat) (category : Category),
      (occurrence.categorize limit).category = some category →
      limit ≤ larger →
        (occurrence.categorize larger).category = some category ∧
          (occurrence.categorize larger).calls =
            (occurrence.categorize limit).calls ∧
          (occurrence.categorize larger).log = []) ∧
      ∀ (records : List NameRecord) (policy : CollectionPolicy)
        (limit other : Nat),
        1 ≤ limit →
        1 ≤ other →
          let collected (limit : Nat) :=
            ofOccurrences (records.map NameRecord.occurrence)
              { policy with inferenceLimit := limit }
          (collected limit).highlights = (collected other).highlights ∧
            List.Forall₂ (SameButLimit limit other)
              (collected limit).log (collected other).log := by
  refine ⟨?_, ?_⟩
  · intro occurrence limit larger category found within
    rw [Occurrence.categorize_eq_of_limit_le found within]
    exact ⟨rfl, rfl, rfl⟩
  · intro records policy limit other allowed otherAllowed collected
    have examined :
        ∀ occurrence ∈ records.map NameRecord.occurrence,
          (occurrence.examine
                { policy with inferenceLimit := limit }).highlight =
              (occurrence.examine
                { policy with inferenceLimit := other }).highlight ∧
            List.Forall₂ (SameButLimit limit other)
              (occurrence.examine
                { policy with inferenceLimit := limit }).log
              (occurrence.examine
                { policy with inferenceLimit := other }).log := by
      intro occurrence member
      obtain ⟨record, _, rfl⟩ := List.mem_map.mp member
      have alike : record.occurrence.InfersAlike := fun _ => rfl
      obtain ⟨sameCategory, related⟩ :=
        Occurrence.categorize_alike alike allowed otherAllowed
      exact Occurrence.examine_with_limit .same sameCategory related
    refine ⟨?_, ?_⟩
    · exact
        highlights_eq_of_examine rfl fun occurrence member =>
          (examined occurrence member).1
    · apply forall₂_log_ofOccurrences .same
      · intro occurrence member
        rw [(examined occurrence member).1]
      · exact fun occurrence member => (examined occurrence member).2

/-- A scripted name is a class after two inferences, so that a limit of five
does as well as a limit of two.  Among the records one is found by inference,
one never is, and one has nothing to infer. -/
theorem larger_limits_keep_what_is_found_of_statements :
    let scripted : Occurrence :=
      ⟨"statement", "s", some 1, some 0, false, fun inference =>
        if inference = 0 then ["statement"] else ["class", "statement"]⟩
    let statement := NameRecord.reference "x" 1 0 "statement"
    let records :=
      [statement.addInferred "function", statement.addInferred "statement",
        statement]
    let collected (limit : Nat) :=
      ofOccurrences (records.map NameRecord.occurrence)
        { inferenceLimit := limit }
    (scripted.categorize 2).category = some .className ∧
      (scripted.categorize 5).category = some .className ∧
      (scripted.categorize 5).calls = 2 ∧
      (collected 1).highlights = (collected 7).highlights ∧
      List.Forall₂ (SameButLimit 1 7) (collected 1).log (collected 7).log ∧
      (collected 1).log ≠ (collected 7).log := by
  intro scripted statement records collected
  obtain ⟨monotone, stable⟩ := larger_limits_keep_what_is_found
  have found : (scripted.categorize 2).category = some .className := by
    decide
  have calls : (scripted.categorize 2).calls = 2 := by
    decide
  obtain ⟨foundLater, sameCalls, _⟩ :=
    monotone scripted 2 5 .className found (by decide)
  obtain ⟨sameHighlights, related⟩ :=
    stable records {} 1 7 (by decide) (by decide)
  refine
    ⟨found, foundLater, sameCalls.trans calls, sameHighlights, related, ?_⟩
  decide

end Collection

end SemanticTokens
