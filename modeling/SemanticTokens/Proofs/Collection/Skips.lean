import Mathlib.Data.List.Forall2
import SemanticTokens.Proofs.Collection.Examination
import SemanticTokens.Proofs.Collection.Log

/-!
# What the log says about skipped names

A name logs nothing if it is highlighted, and otherwise one record that tells
why it is skipped.  The only other record stands right before that one: the
inference of a statement has reached its limit.  The records of a list of names
follow the order of the names, so that the reasons in the log and the skipped
names correspond one by one, and highlighted and skipped names add up to all
names.
-/

namespace SemanticTokens

/-! ## Records that tell of a skipped name -/

namespace LogRecord

/-- Whether a trace record says of itself that it tells of a skipped name. -/
def isSkip (elapsed : String) (record : LogRecord) : Bool :=
  record.level = .trace &&
    "skipping".toList.isPrefixOf (record.text elapsed).toList

theorem isSkip_iff
    (elapsed : String) (record : LogRecord) :
    record.isSkip elapsed = true ↔
      (∃ name, record = .noPosition name) ∨
        (∃ name kind, record = .unmappedKind name kind) ∨
          ∃ line column, record = .emptyName line column := by
  have skipping :
      "skipping".toList = ['s', 'k', 'i', 'p', 'p', 'i', 'n', 'g'] := by
    decide
  have ofName :
      "skipping `".toList =
        ['s', 'k', 'i', 'p', 'p', 'i', 'n', 'g', ' ', '`'] := by
    decide
  have ofEmptyName :
      "skipping empty name at L".toList =
        ['s', 'k', 'i', 'p', 'p', 'i', 'n', 'g'] ++
          " empty name at L".toList := by
    decide
  have ofLimit :
      "inference limit reached for `".toList =
        'i' :: "nference limit reached for `".toList := by
    decide
  rw [isSkip]
  cases record
  all_goals
    delta level text
    simp [String.toList_append, skipping, ofName, ofEmptyName, ofLimit]

/-- Whether every record of a reached limit is followed at once by the record
that skips the same name as a statement. -/
def LimitsFollowed (log : List LogRecord) : Prop :=
  ∀ (before : List LogRecord) (name : String) (steps : Nat)
    (after : List LogRecord),
    log = before ++ .inferenceLimitReached name steps :: after →
      ∃ rest, after = .unmappedKind name "statement" :: rest

theorem LimitsFollowed.append
    {left right : List LogRecord} (leftFollowed : LimitsFollowed left)
    (rightFollowed : LimitsFollowed right) :
    LimitsFollowed (left ++ right) := by
  intro before name steps after split
  rcases List.append_eq_append_iff.mp split with
    ⟨middle, _, rightSplit⟩ | ⟨middle, leftSplit, rest⟩
  · exact rightFollowed middle name steps after rightSplit
  · cases middle with
    | nil =>
        exact rightFollowed [] name steps after rest.symm
    | cons first middle =>
        obtain ⟨rfl, rfl⟩ := List.cons.inj rest
        obtain ⟨others, rfl⟩ := leftFollowed before name steps middle leftSplit
        exact ⟨others ++ right, rfl⟩

end LogRecord

/-! ## One name -/

namespace Occurrence

open LogRecord

/-- Whether a name is skipped, and the record that tells the reason. -/
inductive SkippedFor (occurrence : Occurrence) (policy : CollectionPolicy) :
    LogRecord → Prop
  | noPosition (unknown : occurrence.position? = none) :
      SkippedFor occurrence policy (.noPosition occurrence.text)
  | unmappedKind {place : UInt32 × UInt32}
      (positioned : occurrence.position? = some place)
      (uncategorized :
        (occurrence.categorize policy.inferenceLimit).category = none) :
      SkippedFor occurrence policy
        (.unmappedKind occurrence.text occurrence.kind)
  | emptyName {line column : UInt32} {category : Category}
      (positioned : occurrence.position? = some (line, column))
      (categorized :
        (occurrence.categorize policy.inferenceLimit).category =
          some category)
      (empty : policy.unit.measure occurrence.text.toList = 0) :
      SkippedFor occurrence policy (.emptyName line column)

theorem SkippedFor.isSkip
    {occurrence : Occurrence} {policy : CollectionPolicy}
    {record : LogRecord} (skipped : occurrence.SkippedFor policy record)
    (elapsed : String) :
    record.isSkip elapsed = true := by
  rw [isSkip_iff]
  cases skipped with
  | noPosition _ =>
      exact Or.inl ⟨_, rfl⟩
  | unmappedKind _ _ =>
      exact Or.inr (Or.inl ⟨_, _, rfl⟩)
  | emptyName _ _ _ =>
      exact Or.inr (Or.inr ⟨_, _, rfl⟩)

end Occurrence

/-! ## All names -/

namespace Collection

open LogRecord

def nameLog (policy : CollectionPolicy) (occurrences : List Occurrence) :
    List LogRecord :=
  occurrences.flatMap fun occurrence => (occurrence.examine policy).log

def skippedNames
    (policy : CollectionPolicy) (occurrences : List Occurrence) :
    List Occurrence :=
  occurrences.filter fun occurrence =>
    (occurrence.examine policy).highlight = none

theorem length_highlights
    (occurrences : List Occurrence) (policy : CollectionPolicy) :
    (ofOccurrences occurrences policy).highlights.length =
      (emitted policy occurrences).length := by
  cases sorts : policy.sortsByPosition with
  | true =>
      rw [highlights_of_sorts occurrences sorts, Highlight.sort,
        List.length_mergeSort]
  | false =>
      rw [highlights_of_not_sorts occurrences sorts]

/-- Every name is either highlighted or skipped. -/
theorem length_emitted_add_length_skippedNames
    (policy : CollectionPolicy) (occurrences : List Occurrence) :
    (emitted policy occurrences).length +
        (skippedNames policy occurrences).length =
      occurrences.length := by
  induction occurrences with
  | nil =>
      rfl
  | cons occurrence rest inductionHypothesis =>
      rw [emitted, skippedNames] at inductionHypothesis ⊢
      rw [List.filterMap_cons, List.filter_cons, List.length_cons]
      cases (occurrence.examine policy).highlight with
      | none =>
          simp only [decide_true, if_true, List.length_cons]
          omega
      | some highlight =>
          simp only [reduceCtorEq, decide_false, Bool.false_eq_true, if_false,
            List.length_cons]
          omega

/-- The last record counts the highlights and the skipped names. -/
theorem log_ofOccurrences
    (occurrences : List Occurrence) (policy : CollectionPolicy) :
    (ofOccurrences occurrences policy).log =
      nameLog policy occurrences ++
        [.collected (ofOccurrences occurrences policy).highlights.length
          (skippedNames policy occurrences).length] := by
  have counts := length_emitted_add_length_skippedNames policy occurrences
  have skipped :
      occurrences.length - (emitted policy occurrences).length =
        (skippedNames policy occurrences).length := by
    omega
  have found :
      (occurrences.map (Occurrence.examine · policy)).filterMap
          Examination.highlight =
        emitted policy occurrences :=
    List.filterMap_map
  rw [length_highlights, ← skipped, ofOccurrences]
  dsimp only
  rw [found, nameLog, List.flatMap_map]

section TwoPolicies

variable {left right : CollectionPolicy} {occurrences : List Occurrence}

theorem length_skippedNames_eq
    (sameSkips :
      ∀ occurrence ∈ occurrences,
        (occurrence.examine left).highlight = none ↔
          (occurrence.examine right).highlight = none) :
    (skippedNames left occurrences).length =
      (skippedNames right occurrences).length := by
  have sameNames :
      skippedNames left occurrences = skippedNames right occurrences := by
    apply List.filter_congr
    intro occurrence member
    exact decide_eq_decide.mpr (sameSkips occurrence member)
  rw [sameNames]

theorem forall₂_nameLog
    {relation : LogRecord → LogRecord → Prop}
    (related :
      ∀ occurrence ∈ occurrences,
        List.Forall₂ relation (occurrence.examine left).log
          (occurrence.examine right).log) :
    List.Forall₂ relation (nameLog left occurrences)
      (nameLog right occurrences) := by
  induction occurrences with
  | nil =>
      exact .nil
  | cons occurrence rest inductionHypothesis =>
      rw [nameLog, nameLog, List.flatMap_cons, List.flatMap_cons]
      apply List.rel_append
      · exact related occurrence List.mem_cons_self
      · exact
          inductionHypothesis fun other member =>
            related other (List.mem_cons_of_mem occurrence member)

/-- Logs that correspond for each name correspond for all names, if the same
names are skipped: then the counts are the same as well. -/
theorem forall₂_log_ofOccurrences
    {relation : LogRecord → LogRecord → Prop}
    (same : ∀ record, relation record record)
    (sameSkips :
      ∀ occurrence ∈ occurrences,
        (occurrence.examine left).highlight = none ↔
          (occurrence.examine right).highlight = none)
    (related :
      ∀ occurrence ∈ occurrences,
        List.Forall₂ relation (occurrence.examine left).log
          (occurrence.examine right).log) :
    List.Forall₂ relation (ofOccurrences occurrences left).log
      (ofOccurrences occurrences right).log := by
  have sameSkipped := length_skippedNames_eq sameSkips
  have leftCounts := length_emitted_add_length_skippedNames left occurrences
  have rightCounts := length_emitted_add_length_skippedNames right occurrences
  have sameEmitted :
      (emitted left occurrences).length =
        (emitted right occurrences).length := by
    omega
  rw [log_ofOccurrences, log_ofOccurrences, length_highlights,
    length_highlights, sameSkipped, sameEmitted]
  exact
    List.rel_append (forall₂_nameLog related) (.cons (same _) .nil)

end TwoPolicies

end Collection

end SemanticTokens
