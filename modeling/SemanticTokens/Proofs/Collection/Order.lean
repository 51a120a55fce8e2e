import SemanticTokens.NameRecord.Printer
import SemanticTokens.Proofs.Collection.Examination
import SemanticTokens.Proofs.Highlight.StableSort

/-!
# Order of a collection

Without sorting, a collection holds what its names emit, in the order of the
names.  With sorting it holds the same highlights in order of position, and
those that start at the same place stay in the order of their names.  No other
list has these properties.
-/

namespace SemanticTokens.Collection

open Highlight

/-- A sorted collection is the one and only stable sort of the unsorted one,
which is what the names that are not skipped emit. -/
theorem highlights_unique_stable_sort
    (occurrences : List Occurrence) (policy : CollectionPolicy)
    (sorts : policy.sortsByPosition = true) :
    let unsorted :=
      (ofOccurrences occurrences
        { policy with sortsByPosition := false }).highlights
    let sorted := (ofOccurrences occurrences policy).highlights
    unsorted =
        occurrences.filterMap
          (fun occurrence => (occurrence.examine policy).highlight) ∧
      IsStableSort unsorted sorted ∧
      ∀ other, IsStableSort unsorted other → other = sorted := by
  intro unsorted sorted
  have unsortedEmitted : unsorted = emitted policy occurrences :=
    highlights_of_not_sorts occurrences rfl
  have sortedEmitted : sorted = sort (emitted policy occurrences) :=
    highlights_of_sorts occurrences sorts
  rw [unsortedEmitted, sortedEmitted]
  refine ⟨rfl, isStableSort_sort _, ?_⟩
  intro other stable
  exact stable.eq_sort

/-- Two names at the same place with a skipped name between them, and after
them a name at an earlier place. -/
theorem highlights_unique_stable_sort_of_tied_names :
    let policy : CollectionPolicy := ⟨.utf32, true, 4⟩
    let tied : List Highlight :=
      [⟨1, 0, 2, .className, .empty⟩, ⟨1, 0, 1, .functionName, .empty⟩]
    let earlier : Highlight := ⟨0, 7, 3, .moduleName, .empty⟩
    policy.sortsByPosition = true ∧
      IsStableSort (tied ++ [earlier]) (earlier :: tied) ∧
        ∀ other, IsStableSort (tied ++ [earlier]) other →
          other = earlier :: tied := by
  intro policy tied earlier
  let occurrences :=
    [NameRecord.reference "cd" 2 0 "class",
      NameRecord.reference "x" 2 0 "instance",
      NameRecord.reference "f" 2 0 "function",
      NameRecord.reference "abc" 1 7 "module"].map NameRecord.occurrence
  obtain ⟨emittedInOrder, stable, unique⟩ :=
    highlights_unique_stable_sort occurrences policy rfl
  have unsorted :
      occurrences.filterMap
          (fun occurrence => (occurrence.examine policy).highlight) =
        tied ++ [earlier] := by
    decide
  have sorted :
      (ofOccurrences occurrences policy).highlights = earlier :: tied := by
    rw [highlights_of_sorts occurrences rfl, emitted, unsorted]
    simp [tied, earlier, sort, List.mergeSort,
      List.MergeSort.Internal.splitInTwo, startsBy]
  rw [emittedInOrder, unsorted, sorted] at stable unique
  exact ⟨rfl, stable, unique⟩

end SemanticTokens.Collection
