import SemanticTokens.Collection

/-!
# What becomes of a name

A name is highlighted exactly if it has a position, a category and a text of
some length; the highlight then takes each of its fields from one of these.
A collection holds the highlights of its names, sorted or in the order of the
names, and so every highlight comes from one of the names.
-/

namespace SemanticTokens

namespace Occurrence

/-- The highlight of a name, with all that it takes to get one. -/
theorem highlight_examine_eq_some_iff
    (occurrence : Occurrence) (policy : CollectionPolicy)
    (highlight : Highlight) :
    (occurrence.examine policy).highlight = some highlight ↔
      ∃ line column category,
        occurrence.position? = some (line, column) ∧
          (occurrence.categorize policy.inferenceLimit).category =
            some category ∧
          policy.unit.measure occurrence.text.toList ≠ 0 ∧
          highlight =
            ⟨line, column, policy.unit.measure occurrence.text.toList,
              category, occurrence.modifiers⟩ := by
  rw [examine]
  cases positioned : occurrence.position? with
  | none =>
      simp
  | some position =>
      obtain ⟨line, column⟩ := position
      cases categorized :
          (occurrence.categorize policy.inferenceLimit).category with
      | none =>
          simp [categorized]
      | some category =>
          by_cases empty :
              policy.unit.measure occurrence.text.toList = 0
          · simp [categorized, empty]
          · simp only [categorized, empty, if_false, Option.some.injEq,
              Prod.mk.injEq, ne_eq, not_false_eq_true, true_and]
            constructor
            · rintro rfl
              exact ⟨line, column, category, ⟨rfl, rfl⟩, rfl, rfl⟩
            · rintro ⟨_, _, _, ⟨rfl, rfl⟩, rfl, rfl⟩
              rfl

end Occurrence

namespace Collection

/-- The highlights of the names that are not skipped, in the order of the
names. -/
def emitted (policy : CollectionPolicy) (occurrences : List Occurrence) :
    List Highlight :=
  occurrences.filterMap fun occurrence =>
    (occurrence.examine policy).highlight

theorem mem_emitted_iff
    {policy : CollectionPolicy} {occurrences : List Occurrence}
    {highlight : Highlight} :
    highlight ∈ emitted policy occurrences ↔
      ∃ occurrence ∈ occurrences,
        (occurrence.examine policy).highlight = some highlight :=
  List.mem_filterMap

private theorem filterMap_examinations
    (occurrences : List Occurrence) (policy : CollectionPolicy) :
    (occurrences.map (Occurrence.examine · policy)).filterMap
        Examination.highlight =
      emitted policy occurrences :=
  List.filterMap_map

theorem highlights_of_sorts
    (occurrences : List Occurrence) {policy : CollectionPolicy}
    (sorts : policy.sortsByPosition = true) :
    (ofOccurrences occurrences policy).highlights =
      Highlight.sort (emitted policy occurrences) := by
  rw [← filterMap_examinations]
  simp only [ofOccurrences, sorts, if_true]

theorem highlights_of_not_sorts
    (occurrences : List Occurrence) {policy : CollectionPolicy}
    (keepsOrder : policy.sortsByPosition = false) :
    (ofOccurrences occurrences policy).highlights =
      emitted policy occurrences := by
  rw [← filterMap_examinations]
  simp only [ofOccurrences, keepsOrder, if_false, Bool.false_eq_true]

theorem mem_highlights_iff
    (occurrences : List Occurrence) (policy : CollectionPolicy)
    (highlight : Highlight) :
    highlight ∈ (ofOccurrences occurrences policy).highlights ↔
      ∃ occurrence ∈ occurrences,
        (occurrence.examine policy).highlight = some highlight := by
  rw [← mem_emitted_iff]
  cases sorts : policy.sortsByPosition with
  | true =>
      rw [highlights_of_sorts occurrences sorts, Highlight.sort,
        List.mem_mergeSort]
  | false =>
      rw [highlights_of_not_sorts occurrences sorts]

end Collection

end SemanticTokens
