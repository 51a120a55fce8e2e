import SemanticTokens.Proofs.Delta.RoundTrip

/-!
# What an edit changes in a stream

A group depends on its highlight and on the position of the highlight before
it, and on nothing further back.  Hence a highlight that is added to a list, at
any place and in any order, adds its own group and changes no other one but that
of the highlight behind it, and of this one only the two numbers that tell a
position.

Moving all highlights by the same number of lines keeps every difference between
two of them.  Only the first group counts from the start of the text, so that
only its first number changes.  Its column is the same on the first line and on
any other one, because both count from zero.
-/

namespace SemanticTokens

def Highlight.movedDown (lines : UInt32) (highlight : Highlight) : Highlight :=
  { highlight with line := highlight.line + lines }

namespace DeltaGroup

def positionAfter (line start : UInt32) : List Highlight → UInt32 × UInt32
  | [] => (line, start)
  | highlight :: rest => positionAfter highlight.line highlight.start rest

/-! ## Adding a highlight -/

/-- What is written for a list does not depend on what follows, which is written
from the last position of the list. -/
theorem encodeFrom_append
    (line start : UInt32) (before after : List Highlight) :
    encodeFrom line start (before ++ after) =
      encodeFrom line start before ++
        encodeFrom (positionAfter line start before).1
          (positionAfter line start before).2 after := by
  induction before generalizing line start with
  | nil =>
      rfl
  | cons highlight rest inductionHypothesis =>
      rw [List.cons_append, encodeFrom, encodeFrom, inductionHypothesis,
        List.cons_append, positionAfter]

/-- Of what is written from a position, only the first two numbers depend on
it. -/
theorem drop_two_flatMap_numbers_encodeFrom
    (line start : UInt32) (highlights : List Highlight) :
    ((encodeFrom line start highlights).flatMap numbers).drop 2 =
      ((encodeFrom 0 0 highlights).flatMap numbers).drop 2 := by
  cases highlights with
  | nil =>
      rfl
  | cons highlight rest =>
      rfl

/-! ## Moving all highlights -/

/-- The group between two positions stays when both move. -/
theorem between_movedDown
    (lines line start : UInt32) (highlight : Highlight) :
    between (line + lines) start (highlight.movedDown lines) =
      between line start highlight := by
  have sameDifference :
      highlight.line + lines - (line + lines) = highlight.line - line := by
    rw [UInt32.sub_eq_iff_eq_add, ← UInt32.add_assoc, UInt32.sub_add_cancel]
  simp only [between, Highlight.movedDown, sameDifference]

theorem encodeFrom_map_movedDown
    (lines line start : UInt32) (highlights : List Highlight) :
    encodeFrom (line + lines) start
        (highlights.map (Highlight.movedDown lines)) =
      encodeFrom line start highlights := by
  induction highlights generalizing line start with
  | nil =>
      rfl
  | cons highlight rest inductionHypothesis =>
      rw [List.map_cons, encodeFrom, encodeFrom, between_movedDown]
      exact
        congrArg (List.cons (between line start highlight))
          (inductionHypothesis highlight.line highlight.start)

end DeltaGroup

namespace Delta

open DeltaGroup

theorem encode_append
    (before after : List Highlight) :
    encode (before ++ after) =
      encode before ++
        (encodeFrom (positionAfter 0 0 before).1
          (positionAfter 0 0 before).2 after).flatMap numbers := by
  rw [encode, encode, groups, groups, encodeFrom_append, List.flatMap_append]

/-- The first group tells the position itself, whatever its line is. -/
theorem encode_cons
    (highlight : Highlight) (rest : List Highlight) :
    encode (highlight :: rest) =
      highlight.line :: highlight.start :: highlight.length ::
        highlight.category.index :: highlight.modifiers.bits ::
          (encodeFrom highlight.line highlight.start rest).flatMap numbers := by
  have first :
      between 0 0 highlight =
        ⟨highlight.line, highlight.start, highlight.length,
          highlight.category.index, highlight.modifiers.bits⟩ := by
    simp only [between, UInt32.sub_zero, ite_self]
  rw [encode, groups, encodeFrom, first]
  rfl

/-- The first groups of a stream are those of the first highlights. -/
theorem take_encode_append
    (before after : List Highlight) :
    (encode (before ++ after)).take (5 * before.length) = encode before := by
  rw [encode_append, ← length_encode before, List.take_left]

/-- Behind the first highlights, the two numbers of a position are all that
depends on them. -/
theorem drop_encode_append
    (before after : List Highlight) :
    (encode (before ++ after)).drop (5 * before.length + 2) =
      (encode after).drop 2 := by
  rw [encode_append, ← length_encode before, ← List.drop_drop,
    List.drop_left, drop_two_flatMap_numbers_encodeFrom, encode, groups]

/-- A highlight that is added to a list changes nothing in the stream of those
before it.  Behind its own group the groups are as they were, from the second
one on, and the first one has the same last three numbers. -/
theorem encode_append_singleton_append_local
    (before after : List Highlight) (added : Highlight) :
    let longer := encode (before ++ [added] ++ after)
    let shorter := encode (before ++ after)
    let count := before.length
    longer.take (5 * count) = shorter.take (5 * count) ∧
      longer.drop (5 * (count + 2)) = shorter.drop (5 * (count + 1)) ∧
      (longer.drop (5 * (count + 1) + 2)).take 3 =
        (shorter.drop (5 * count + 2)).take 3 ∧
      longer.length = shorter.length + 5 := by
  intro longer shorter count
  have sameBehind :
      longer.drop (5 * (count + 1) + 2) =
        shorter.drop (5 * count + 2) := by
    have counted : (before ++ [added]).length = count + 1 :=
      List.length_append
    rw [← counted, drop_encode_append, drop_encode_append]
  refine ⟨?_, ?_, ?_, ?_⟩
  · rw [take_encode_append]
    simp only [longer, List.append_assoc]
    exact take_encode_append before ([added] ++ after)
  · -- The three numbers that are no position lead to the next group.
    have nextGroups := congrArg (List.drop 3) sameBehind
    rw [List.drop_drop, List.drop_drop] at nextGroups
    exact nextGroups
  · rw [sameBehind]
  · rw [length_encode, length_encode, List.length_append,
      List.length_append, List.length_append, List.length_singleton]
    omega

/-- When all highlights move by the same number of lines, the first number of
their stream grows by it, and every other number stays as it is. -/
theorem encode_map_movedDown
    (highlights : List Highlight) (nonempty : highlights ≠ [])
    (lines : UInt32) :
    ∃ first others,
      encode highlights = first :: others ∧
        encode (highlights.map (Highlight.movedDown lines)) =
          (first + lines) :: others := by
  cases highlights with
  | nil =>
      exact (nonempty rfl).elim
  | cons highlight rest =>
      -- The position that the rest is written from has moved like the rest.
      have sameRest :
          encodeFrom (highlight.movedDown lines).line
              (highlight.movedDown lines).start
              (rest.map (Highlight.movedDown lines)) =
            encodeFrom highlight.line highlight.start rest :=
        encodeFrom_map_movedDown lines highlight.line highlight.start rest
      refine ⟨highlight.line, _, encode_cons highlight rest, ?_⟩
      rw [List.map_cons, encode_cons, sameRest]
      rfl

/-- Highlights in no order, on the last line of all, which becomes the first
one. -/
theorem encode_map_movedDown_over_last_line :
    let highlights : List Highlight :=
      [⟨4294967295, 7, 2, .className, .empty⟩,
        ⟨3, 7, 1, .functionName, .empty⟩,
        ⟨4294967295, 1, 4, .moduleName, .empty⟩]
    highlights ≠ [] ∧
      encode highlights =
        [4294967295, 7, 2, 4, 0, 4, 7, 1, 3, 0, 4294967292, 1, 4, 2, 0] ∧
        encode (highlights.map (Highlight.movedDown 1)) =
          [0, 7, 2, 4, 0, 4, 7, 1, 3, 0, 4294967292, 1, 4, 2, 0] := by
  intro highlights
  have nonempty : highlights ≠ [] := List.cons_ne_nil _ _
  have stream :
      encode highlights =
        [4294967295, 7, 2, 4, 0, 4, 7, 1, 3, 0, 4294967292, 1, 4, 2, 0] := by
    decide
  obtain ⟨first, others, written, moved⟩ :=
    encode_map_movedDown highlights nonempty 1
  rw [stream] at written
  cases written
  exact ⟨nonempty, stream, moved⟩

end Delta

end SemanticTokens
