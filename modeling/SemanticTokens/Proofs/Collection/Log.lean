import SemanticTokens.Collection
import SemanticTokens.Proofs.Occurrence.Inference

/-!
# The log of a collection

A name is examined to one of four ends, and logs how its inference ends and
then why it is skipped, if it is.  The names log one after the other, before
anything is sorted, and the count of all of them comes last.  No record of a
collection tells a time.
-/

namespace SemanticTokens

/-- Whether the text of a record is the same however long a run takes. -/
def LogRecord.IsTimeless (record : LogRecord) : Prop :=
  ∀ elapsed other : String, record.text elapsed = record.text other

namespace Occurrence

/-- How the examination of a name ends, and with what. -/
inductive ExaminationEnds
    (occurrence : Occurrence) (policy : CollectionPolicy) :
    Examination → Prop
  | noPosition (unknown : occurrence.position? = none) :
      ExaminationEnds occurrence policy
        ⟨none, 0, [.noPosition occurrence.text]⟩
  | noCategory {line column : UInt32} {calls : Nat} {log : List LogRecord}
      (positioned : occurrence.position? = some (line, column))
      (categorized :
        occurrence.categorize policy.inferenceLimit = ⟨none, calls, log⟩) :
      ExaminationEnds occurrence policy
        ⟨none, calls, log ++ [.unmappedKind occurrence.text occurrence.kind]⟩
  | emptyName {line column : UInt32} {category : Category} {calls : Nat}
      {log : List LogRecord}
      (positioned : occurrence.position? = some (line, column))
      (categorized :
        occurrence.categorize policy.inferenceLimit =
          ⟨some category, calls, log⟩)
      (empty : policy.unit.measure occurrence.text.toList = 0) :
      ExaminationEnds occurrence policy
        ⟨none, calls, log ++ [.emptyName line column]⟩
  | highlighted {line column : UInt32} {category : Category} {calls : Nat}
      {log : List LogRecord}
      (positioned : occurrence.position? = some (line, column))
      (categorized :
        occurrence.categorize policy.inferenceLimit =
          ⟨some category, calls, log⟩)
      (nonempty : policy.unit.measure occurrence.text.toList ≠ 0) :
      ExaminationEnds occurrence policy
        ⟨some
            ⟨line, column, policy.unit.measure occurrence.text.toList,
              category, occurrence.modifiers⟩,
          calls, log⟩

theorem examine_ends
    (occurrence : Occurrence) (policy : CollectionPolicy) :
    occurrence.ExaminationEnds policy (occurrence.examine policy) := by
  rw [examine]
  cases positioned : occurrence.position? with
  | none =>
      exact .noPosition positioned
  | some position =>
      obtain ⟨line, column⟩ := position
      cases categorized : occurrence.categorize policy.inferenceLimit with
      | mk found calls log =>
          cases found with
          | none =>
              exact .noCategory positioned categorized
          | some category =>
              by_cases empty :
                  policy.unit.measure occurrence.text.toList = 0
              · simp only [empty, if_true]
                exact .emptyName positioned categorized empty
              · simp only [empty, if_false]
                exact .highlighted positioned categorized empty

/-! ## Records of one name -/

theorem isTimeless_of_mem_log_categorize
    {occurrence : Occurrence} {limit : Nat} {record : LogRecord}
    (member : record ∈ (occurrence.categorize limit).log) :
    record.IsTimeless := by
  obtain ⟨result, ends⟩ := occurrence.exists_inferenceEnds limit
  rw [categorize_eq_of_inferenceEnds ends] at member
  cases ends with
  | decided | noCandidate =>
      cases member
  | limitReached =>
      rw [List.mem_singleton.mp member]
      exact fun _ _ => rfl

theorem isTimeless_of_mem_log_examine
    {occurrence : Occurrence} {policy : CollectionPolicy}
    {record : LogRecord}
    (member : record ∈ (occurrence.examine policy).log) :
    record.IsTimeless := by
  have inferred {category : Option Category} {calls : Nat}
      {log : List LogRecord}
      (categorized :
        occurrence.categorize policy.inferenceLimit =
          ⟨category, calls, log⟩)
      (inLog : record ∈ log) :
      record.IsTimeless := by
    have ofCategory :
        record ∈ (occurrence.categorize policy.inferenceLimit).log := by
      rwa [categorized]
    exact isTimeless_of_mem_log_categorize ofCategory
  have ends := occurrence.examine_ends policy
  generalize occurrence.examine policy = examination at ends member
  cases ends with
  | noPosition =>
      rw [List.mem_singleton.mp member]
      exact fun _ _ => rfl
  | noCategory _ categorized =>
      rcases List.mem_append.mp member with inLog | atEnd
      · exact inferred categorized inLog
      · rw [List.mem_singleton.mp atEnd]
        exact fun _ _ => rfl
  | emptyName _ categorized =>
      rcases List.mem_append.mp member with inLog | atEnd
      · exact inferred categorized inLog
      · rw [List.mem_singleton.mp atEnd]
        exact fun _ _ => rfl
  | highlighted _ categorized =>
      exact inferred categorized member

end Occurrence

/-! ## Records of all names -/

namespace Collection

theorem isTimeless_of_mem_log
    {occurrences : List Occurrence} {policy : CollectionPolicy}
    {record : LogRecord}
    (member : record ∈ (ofOccurrences occurrences policy).log) :
    record.IsTimeless := by
  rcases List.mem_append.mp member with ofName | atEnd
  · obtain ⟨examination, examined, inLog⟩ := List.mem_flatMap.mp ofName
    obtain ⟨occurrence, _, rfl⟩ := List.mem_map.mp examined
    exact Occurrence.isTimeless_of_mem_log_examine inLog
  · rw [List.mem_singleton.mp atEnd]
    exact fun _ _ => rfl

end Collection

end SemanticTokens
