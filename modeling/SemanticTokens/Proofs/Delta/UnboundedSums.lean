import Mathlib.Data.List.Chain
import SemanticTokens.NameRecord.Printer
import SemanticTokens.Proofs.Collection.Examination
import SemanticTokens.Proofs.Delta.Groups
import SemanticTokens.Proofs.Highlight.StableSort

/-!
# Sums without a bound

A client may add up the deltas of a stream as natural numbers, which never
wrap.  A difference that goes back wraps when it is written, and then the sum
overshoots by `2 ^ 32` and is not brought back by anything that follows.  So
such a client finds the positions of a list of highlights exactly if the list
is in order, as that of a sorted collection is.  The deltas are then the
differences of the positions themselves.
-/

namespace SemanticTokens

def Highlight.naturalPosition (highlight : Highlight) : Nat × Nat :=
  (highlight.line.toNat, highlight.start.toNat)

namespace DeltaGroup

/-- The line and column that a group leads to from others, without a bound. -/
def advance (line column : Nat) (group : DeltaGroup) : Nat × Nat :=
  (line + group.lineDelta.toNat,
    if group.lineDelta = 0 then column + group.startDelta.toNat
    else group.startDelta.toNat)

def advanceFrom (line column : Nat) : List DeltaGroup → List (Nat × Nat)
  | [] => []
  | group :: rest =>
      let place := advance line column group
      place :: advanceFrom place.1 place.2 rest

def deltas (group : DeltaGroup) : Int × Int :=
  (group.lineDelta.toNat, group.startDelta.toNat)

end DeltaGroup

namespace Delta

open DeltaGroup Highlight

/-- The positions that a client finds by adding up the deltas of a stream as
natural numbers. -/
def addUp (data : List UInt32) : List (Nat × Nat) :=
  advanceFrom 0 0 (ofNumbers data)

/-- The differences of positions, counted from a line and column: the lines
between them, and the columns between them if they share a line. -/
def differencesFrom (line column : Nat) : List (Nat × Nat) → List (Int × Int)
  | [] => []
  | place :: rest =>
      (place.1 - line,
          if place.1 = line then place.2 - column else place.2) ::
        differencesFrom place.1 place.2 rest

/-! ## One group -/

theorem toNat_add_toNat_sub_eq_iff
    (earlier later : UInt32) :
    earlier.toNat + (later - earlier).toNat = later.toNat ↔
      earlier ≤ later := by
  have earlierBound := earlier.toNat_lt
  have laterBound := later.toNat_lt
  rw [UInt32.toNat_sub, UInt32.le_iff_toNat_le]
  omega

/-- A written group leads from a position to that of its highlight exactly if
the highlight starts no earlier: otherwise one of the differences has
wrapped. -/
theorem advance_between_eq_iff
    (line start : UInt32) (highlight : Highlight) :
    advance line.toNat start.toNat (between line start highlight) =
        highlight.naturalPosition ↔
      NoLater (line, start) highlight.position := by
  have lineReached := toNat_add_toNat_sub_eq_iff line highlight.line
  have startReached := toNat_add_toNat_sub_eq_iff start highlight.start
  by_cases sameLine : highlight.line = line
  · simp only [advance, between, naturalPosition, NoLater, position,
      sameLine, UInt32.sub_self, if_true, Prod.mk.injEq, startReached,
      UInt32.toNat_zero, Nat.add_zero, UInt32.lt_irrefl, true_and,
      false_or]
  · have someLines : highlight.line - line ≠ 0 := by
      rw [Ne, UInt32.sub_eq_iff_eq_add, UInt32.zero_add]
      exact sameLine
    have otherLine : line ≠ highlight.line := Ne.symm sameLine
    simp only [advance, between, naturalPosition, NoLater, position,
      someLines, if_false, Prod.mk.injEq, lineReached, otherLine,
      and_true, false_and, or_false]
    exact UInt32.le_iff_lt_or_eq.trans (or_iff_left otherLine)

/-! ## All groups -/

/-- From a common position on, the client reaches every highlight exactly if
no step goes back. -/
theorem advanceFrom_encodeFrom_eq_iff
    (line start : UInt32) (highlights : List Highlight) :
    advanceFrom line.toNat start.toNat (encodeFrom line start highlights) =
        highlights.map naturalPosition ↔
      List.IsChain NoLater
        ((line, start) :: highlights.map position) := by
  induction highlights generalizing line start with
  | nil =>
      simp [encodeFrom, advanceFrom]
  | cons highlight rest inductionHypothesis =>
      rw [List.map_cons, List.map_cons, List.isChain_cons_cons,
        ← advance_between_eq_iff, encodeFrom, advanceFrom,
        List.cons.injEq]
      -- Only a client that has reached the first highlight goes on from it.
      apply and_congr_right
      intro reached
      rw [reached]
      exact inductionHypothesis highlight.line highlight.start

theorem isChain_origin_iff_inOrder
    (highlights : List Highlight) :
    List.IsChain NoLater ((0, 0) :: highlights.map position) ↔
      InOrder highlights := by
  rw [List.isChain_iff_pairwise, List.pairwise_cons, List.pairwise_map]
  exact and_iff_right fun place _ => origin_noLater place

theorem addUp_encode_eq_iff
    (highlights : List Highlight) :
    addUp (encode highlights) = highlights.map naturalPosition ↔
      InOrder highlights := by
  rw [← isChain_origin_iff_inOrder, addUp, encode,
    ofNumbers_flatMap_numbers]
  exact advanceFrom_encodeFrom_eq_iff 0 0 highlights

/-- Deltas are the differences of the positions that they add up to. -/
theorem differencesFrom_advanceFrom
    (line column : Nat) (groups : List DeltaGroup) :
    differencesFrom line column (advanceFrom line column groups) =
      groups.map deltas := by
  induction groups generalizing line column with
  | nil =>
      rfl
  | cons group rest inductionHypothesis =>
      have staysOnLine :
          line + group.lineDelta.toNat = line ↔ group.lineDelta = 0 := by
        rw [Nat.add_eq_left, ← UInt32.toNat_zero, UInt32.toNat_inj]
      rw [advanceFrom, differencesFrom, inductionHypothesis, List.map_cons,
        List.cons.injEq]
      refine ⟨Prod.ext ?_ ?_, rfl⟩
      · simp only [advance, deltas]
        omega
      · simp only [advance, deltas, staysOnLine]
        by_cases sameLine : group.lineDelta = 0
        · rw [if_pos sameLine, if_pos sameLine]
          omega
        · rw [if_neg sameLine, if_neg sameLine]

/-- Adding up the deltas of a list without a bound finds the position of every
highlight exactly if the list is in order.  The stream of a sorted collection
has no delta that wraps: all of them are true differences. -/
theorem addUp_finds_positions_iff_inOrder
    (highlights : List Highlight) :
    (addUp (encode highlights) = highlights.map naturalPosition ↔
        InOrder highlights) ∧
      ∀ (occurrences : List Occurrence) (policy : CollectionPolicy),
        policy.sortsByPosition = true →
          let collected :=
            (Collection.ofOccurrences occurrences policy).highlights
          let stream := encode collected
          addUp stream = collected.map naturalPosition ∧
            (ofNumbers stream).map deltas =
              differencesFrom 0 0 (collected.map naturalPosition) := by
  refine ⟨addUp_encode_eq_iff highlights, ?_⟩
  intro occurrences policy sorts collected stream
  have inOrder : InOrder collected := by
    rw [show collected = sort (Collection.emitted policy occurrences) from
      Collection.highlights_of_sorts occurrences sorts]
    exact inOrder_sort (Collection.emitted policy occurrences)
  have found : addUp stream = collected.map naturalPosition :=
    (addUp_encode_eq_iff collected).mpr inOrder
  refine ⟨found, ?_⟩
  rw [← found, addUp, differencesFrom_advanceFrom]

/-- Names from the last to the first, two of them on one line. -/
theorem addUp_finds_positions_of_reversed_names :
    let policy : CollectionPolicy := ⟨.utf32, true, 4⟩
    let occurrences :=
      [NameRecord.reference "f" 5 3 "function",
        NameRecord.reference "b" 2 9 "class",
        NameRecord.reference "a" 2 4 "class"].map NameRecord.occurrence
    let stream :=
      encode (Collection.ofOccurrences occurrences policy).highlights
    policy.sortsByPosition = true ∧
      addUp stream = [(1, 4), (1, 9), (4, 3)] ∧
        (ofNumbers stream).map deltas = [(1, 4), (0, 5), (3, 3)] := by
  intro policy occurrences stream
  obtain ⟨found, differences⟩ :=
    (addUp_finds_positions_iff_inOrder []).2 occurrences policy rfl
  have emitted :
      Collection.emitted policy occurrences =
        [⟨4, 3, 1, .functionName, .empty⟩, ⟨1, 9, 1, .className, .empty⟩,
          ⟨1, 4, 1, .className, .empty⟩] := by
    decide
  have positions :
      (Collection.ofOccurrences occurrences policy).highlights.map
          naturalPosition =
        [(1, 4), (1, 9), (4, 3)] := by
    rw [Collection.highlights_of_sorts occurrences rfl, emitted]
    simp [sort, List.mergeSort, List.MergeSort.Internal.splitInTwo,
      startsBy, naturalPosition]
  rw [positions] at found differences
  exact ⟨rfl, found, differences⟩

/-- The sums overshoot where a line goes back. -/
example :
    addUp
        (encode
          [⟨3, 5, 1, .variableName, .empty⟩,
            ⟨1, 0, 1, .variableName, .empty⟩]) =
      [(3, 5), (4294967297, 0)] := by
  decide

end Delta

end SemanticTokens
