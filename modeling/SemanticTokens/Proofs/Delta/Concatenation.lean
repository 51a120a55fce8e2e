import SemanticTokens.Proofs.Delta.Groups

/-!
# Streams one behind the other

A reader carries a position from group to group, so a stream is read differently
behind another one than alone.  The two readings keep a fixed difference of lines
for ever.  Their columns differ as long as no group changes the line, and from the
first one that does they are the same, also on a line that was left and reached
again.

Numbers that are no complete group are never read, so that a stream that is cut
anywhere still gives the first tokens of the whole one.
-/

namespace SemanticTokens

namespace Token

def positionAfter (line start : UInt32) (tokens : List Token) :
    UInt32 × UInt32 :=
  (tokens.getLast?.map fun token => (token.line, token.start)).getD
    (line, start)

/-- A token where the reading begins at a given position: it is that many lines
further down and, if no line was changed on the way to it, that many columns
further right. -/
def relocate (position : UInt32 × UInt32) (keepsLine : Bool) (token : Token) :
    Token :=
  { token with
    line := token.line + position.1
    start := if keepsLine then token.start + position.2 else token.start }

theorem positionAfter_cons
    (line start : UInt32) (token : Token) (rest : List Token) :
    positionAfter line start (token :: rest) =
      positionAfter token.line token.start rest := by
  rw [positionAfter, positionAfter, List.getLast?_cons]
  cases rest.getLast? with
  | none =>
      rfl
  | some last =>
      rfl

end Token

namespace DeltaGroup

/-- Whether the group at an index and all groups before it stay on the line of
the token before them. -/
def keepLineUpTo (groups : List DeltaGroup) (index : Nat) : Bool :=
  (groups.take (index + 1)).all fun group => group.lineDelta = 0

theorem keepLineUpTo_cons_zero
    (group : DeltaGroup) (rest : List DeltaGroup) :
    keepLineUpTo (group :: rest) 0 = decide (group.lineDelta = 0) := by
  rw [keepLineUpTo, List.take_succ_cons, List.take_zero, List.all_cons,
    List.all_nil, Bool.and_true]

theorem keepLineUpTo_cons_succ
    (group : DeltaGroup) (rest : List DeltaGroup) (index : Nat) :
    keepLineUpTo (group :: rest) (index + 1) =
      (decide (group.lineDelta = 0) && keepLineUpTo rest index) := by
  rw [keepLineUpTo, List.take_succ_cons, List.all_cons, keepLineUpTo]

/-! ## Reading on -/

/-- What is read from groups does not depend on what follows, which is read from
their last position. -/
theorem resolveFrom_append
    (line start : UInt32) (front back : List DeltaGroup) :
    resolveFrom line start (front ++ back) =
      resolveFrom line start front ++
        resolveFrom
          (Token.positionAfter line start (resolveFrom line start front)).1
          (Token.positionAfter line start (resolveFrom line start front)).2
          back := by
  induction front generalizing line start with
  | nil =>
      rfl
  | cons group rest inductionHypothesis =>
      rw [List.cons_append, resolveFrom, resolveFrom, inductionHypothesis,
        List.cons_append, Token.positionAfter_cons]

/-- One step of two readings whose lines differ by a fixed number, and their
columns too unless a line was changed. -/
theorem resolve_relocated
    (line start : UInt32) (position : UInt32 × UInt32) (kept : Bool)
    (group : DeltaGroup) :
    resolve (line + position.1) (if kept then start + position.2 else start)
        group =
      (resolve line start group).relocate position
        (kept && decide (group.lineDelta = 0)) := by
  have swapped (value moved delta : UInt32) :
      value + moved + delta = value + delta + moved := by
    rw [UInt32.add_assoc, UInt32.add_comm moved, ← UInt32.add_assoc]
  simp only [resolve, Token.relocate, swapped line, Token.mk.injEq, true_and,
    and_true]
  by_cases keepsLine : group.lineDelta = 0
  · cases kept with
    | false =>
        simp only [keepsLine, if_true, Bool.false_and, Bool.false_eq_true,
          if_false]
    | true =>
        simp only [keepsLine, if_true, decide_true, Bool.and_true,
          swapped start]
  · simp only [keepsLine, if_false, decide_false, Bool.and_false,
      Bool.false_eq_true]

/-- Whether a line was changed is carried from step to step: once it is, the
columns are the same for ever. -/
theorem resolveFrom_relocated
    (line start : UInt32) (position : UInt32 × UInt32) (kept : Bool)
    (groups : List DeltaGroup) :
    resolveFrom (line + position.1)
        (if kept then start + position.2 else start) groups =
      (resolveFrom line start groups).mapIdx fun index token =>
        token.relocate position (kept && keepLineUpTo groups index) := by
  induction groups generalizing line start kept with
  | nil =>
      rfl
  | cons group rest inductionHypothesis =>
      have tail :=
        inductionHypothesis (resolve line start group).line
          (resolve line start group).start
          (kept && decide (group.lineDelta = 0))
      rw [resolveFrom, resolve_relocated, resolveFrom, List.mapIdx_cons,
        keepLineUpTo_cons_zero]
      simp only [keepLineUpTo_cons_succ, ← Bool.and_assoc]
      exact congrArg (List.cons _) tail

end DeltaGroup

namespace Delta

open DeltaGroup

/-- Complete groups in front have no part in how the numbers behind them are cut
into groups. -/
theorem ofNumbers_append
    {front : List UInt32} (whole : 5 ∣ front.length) (back : List UInt32) :
    ofNumbers (front ++ back) = ofNumbers front ++ ofNumbers back := by
  have complete : (ofNumbers front).flatMap numbers = front := by
    rw [flatMap_numbers_ofNumbers, Nat.mul_div_cancel' whole,
      List.take_length]
  rw [← ofNumbers_flatMap_append, complete]

theorem decode_append
    {front : List UInt32} (whole : 5 ∣ front.length) (back : List UInt32) :
    decode (front ++ back) =
      decode front ++
        (decode back).mapIdx fun index token =>
          token.relocate (Token.positionAfter 0 0 (decode front))
            (keepLineUpTo (ofNumbers back) index) := by
  have relocated :=
    resolveFrom_relocated 0 0 (Token.positionAfter 0 0 (decode front)) true
      (ofNumbers back)
  simp only [UInt32.zero_add, if_true, Bool.true_and] at relocated
  rw [decode_eq_resolveFrom back, ← relocated, decode_eq_resolveFrom front,
    ← resolveFrom_append, ← ofNumbers_append whole, decode_eq_resolveFrom]

/-- A stream that is cut has as many tokens as it has complete groups left, and
they are the first ones of the whole stream. -/
theorem decode_take
    (data : List UInt32) (count : Nat) :
    decode (data.take count) =
      (decode data).take (min count data.length / 5) := by
  let groupsLeft := min count data.length / 5
  let front := data.take (5 * groupsLeft)
  have frontLength : front.length = 5 * groupsLeft := by
    rw [List.length_take]
    omega
  have sameGroups : decode (data.take count) = decode front := by
    rw [decode_eq_iff, frontLength, List.length_take, List.take_take,
      List.take_take]
    congr 1
    omega
  have split :=
    decode_append ⟨groupsLeft, frontLength⟩ (data.drop (5 * groupsLeft))
  have tokensLeft : (decode front).length = min count data.length / 5 := by
    rw [length_decode, frontLength]
    omega
  rw [List.take_append_drop] at split
  rw [sameGroups, split, ← tokensLeft, List.take_left]

/-- A stream behind complete groups gives the tokens that it gives alone, each
moved down by the line of the last token in front, and moved right by its column
as long as no group has changed the line.  A stream that is cut to its first
numbers gives the first tokens of the whole one. -/
theorem decode_append_relocated_and_take
    (front back : List UInt32) (whole : 5 ∣ front.length) :
    decode (front ++ back) =
        decode front ++
          (decode back).mapIdx (fun index token =>
            token.relocate (Token.positionAfter 0 0 (decode front))
              (keepLineUpTo (ofNumbers back) index)) ∧
      ∀ (data : List UInt32) (count : Nat),
        decode (data.take count) =
          (decode data).take (min count data.length / 5) :=
  ⟨decode_append whole back, decode_take⟩

/-- The last token in front is on the last line of all.  Behind it one group
stays there, one wraps to the first line and one goes back again, and a number is
left over. -/
theorem decode_append_relocated_over_last_line :
    5 ∣ [4294967295, 7, 2, 4, 0].length ∧
      decode
          ([4294967295, 7, 2, 4, 0] ++
            [0, 3, 1, 0, 0, 1, 5, 2, 1, 1, 4294967295, 2, 3, 3, 0, 9]) =
        [⟨4294967295, 7, 2, 4, 0⟩, ⟨4294967295, 10, 1, 0, 0⟩,
          ⟨0, 5, 2, 1, 1⟩, ⟨4294967295, 2, 3, 3, 0⟩] := by
  have whole : 5 ∣ [4294967295, 7, 2, 4, 0].length := ⟨1, rfl⟩
  refine
    ⟨whole,
      (decode_append_relocated_and_take [4294967295, 7, 2, 4, 0]
        [0, 3, 1, 0, 0, 1, 5, 2, 1, 1, 4294967295, 2, 3, 3, 0, 9]
        whole).1.trans ?_⟩
  decide

end Delta

end SemanticTokens
