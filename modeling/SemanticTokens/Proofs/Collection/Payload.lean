import SemanticTokens.NameRecord.Printer
import SemanticTokens.Proofs.Collection.Examination
import SemanticTokens.Proofs.Delta.Payload
import SemanticTokens.Proofs.Highlight.StableSort

/-!
# What the response for a list of names depends on

The response for a sorted collection depends on what the names emit at each
place, in the order of the names, and on nothing else.  Skipped names leave no
trace in it, and names that emit at different places may change their order.
All else shows: the numbers of the response determine the highlights, and the
sorted highlights what was emitted at each place.
-/

namespace SemanticTokens.Collection

open Highlight

def emitsAt
    (policy : CollectionPolicy) (place : UInt32 × UInt32)
    (occurrence : Occurrence) : Bool :=
  (occurrence.examine policy).highlight.any fun highlight =>
    highlight.position = place

/-- What starts at a place is emitted by the names that emit there. -/
theorem startingAt_emitted
    (policy : CollectionPolicy) (place : UInt32 × UInt32)
    (occurrences : List Occurrence) :
    startingAt place (emitted policy occurrences) =
      emitted policy (occurrences.filter (emitsAt policy place)) := by
  rw [startingAt, emitted, emitted, List.filter_filterMap,
    List.filterMap_filter]
  congr 1
  funext occurrence
  rw [emitsAt]
  cases (occurrence.examine policy).highlight with
  | none =>
      rfl
  | some highlight =>
      rw [Option.any_some, Option.filter_some]

theorem encode_eq_iff
    (left right : List Occurrence) {policy : CollectionPolicy}
    (sorts : policy.sortsByPosition = true) :
    Delta.encode (ofOccurrences left policy).highlights =
        Delta.encode (ofOccurrences right policy).highlights ↔
      ∀ place,
        startingAt place (emitted policy left) =
          startingAt place (emitted policy right) := by
  rw [highlights_of_sorts left sorts, highlights_of_sorts right sorts,
    ← sort_eq_sort_iff]
  constructor
  · exact Delta.encode_injective
  · intro sameOrder
    rw [sameOrder]

theorem payload_eq_iff
    (left right : Collection) :
    left.payload = right.payload ↔
      Delta.encode left.highlights = Delta.encode right.highlights := by
  constructor
  · intro samePayload
    rw [Delta.payload_groups_injective samePayload]
  · intro sameNumbers
    rw [payload, payload, Delta.encode_injective sameNumbers]

/-- Two lists of names have the same response, number by number and as a text,
exactly if they emit the same highlights in the same order at each place.  In
particular the response stays as it is when skipped names, which emit nowhere,
come or go, and when the names change their order in any way but among those
that emit at one place. -/
theorem response_eq_iff_same_at_each_place
    (left right : List Occurrence) (policy : CollectionPolicy)
    (sorts : policy.sortsByPosition = true) :
    let leftCollection := ofOccurrences left policy
    let rightCollection := ofOccurrences right policy
    let sameAtEachPlace :=
      ∀ place,
        startingAt place (emitted policy left) =
          startingAt place (emitted policy right)
    (leftCollection.payload = rightCollection.payload ↔ sameAtEachPlace) ∧
      (Delta.encode leftCollection.highlights =
          Delta.encode rightCollection.highlights ↔ sameAtEachPlace) ∧
      ((∀ place,
          left.filter (emitsAt policy place) =
            right.filter (emitsAt policy place)) →
        Delta.encode leftCollection.highlights =
          Delta.encode rightCollection.highlights) := by
  intro leftCollection rightCollection sameAtEachPlace
  have numbers :
      Delta.encode leftCollection.highlights =
          Delta.encode rightCollection.highlights ↔ sameAtEachPlace :=
    encode_eq_iff left right sorts
  refine ⟨(payload_eq_iff _ _).trans numbers, numbers, ?_⟩
  intro sameNames
  apply numbers.mpr
  intro place
  rw [startingAt_emitted, startingAt_emitted, sameNames]

/-- Two names at one place stay in their order, a third name moves before
them, and a skipped name goes. -/
theorem response_eq_of_moved_and_skipped_names :
    let policy : CollectionPolicy := ⟨.utf32, true, 4⟩
    let first := (NameRecord.reference "cd" 2 0 "class").occurrence
    let skipped := (NameRecord.reference "x" 2 0 "instance").occurrence
    let second := (NameRecord.reference "f" 2 0 "function").occurrence
    let moved := (NameRecord.reference "abc" 1 7 "module").occurrence
    policy.sortsByPosition = true ∧
      Delta.encode
          (ofOccurrences [first, skipped, second, moved] policy).highlights =
        Delta.encode
          (ofOccurrences [moved, first, second] policy).highlights := by
  intro policy first skipped second moved
  refine ⟨rfl, ?_⟩
  apply
    (response_eq_iff_same_at_each_place [first, skipped, second, moved]
      [moved, first, second] policy rfl).2.2
  intro place
  have emitsFirst :
      (first.examine policy).highlight =
        some ⟨1, 0, 2, .className, .empty⟩ := by
    decide
  have emitsSecond :
      (second.examine policy).highlight =
        some ⟨1, 0, 1, .functionName, .empty⟩ := by
    decide
  have emitsMoved :
      (moved.examine policy).highlight =
        some ⟨0, 7, 3, .moduleName, .empty⟩ := by
    decide
  have emitsNothing : (skipped.examine policy).highlight = none := by
    decide
  simp only [List.filter_cons, List.filter_nil, emitsAt, emitsFirst,
    emitsSecond, emitsMoved, emitsNothing, Option.any_some, Option.any_none,
    position, Bool.false_eq_true, if_false]
  by_cases there : ((0, 7) : UInt32 × UInt32) = place
  · subst place
    rfl
  · simp [there]

end SemanticTokens.Collection
