import SemanticTokens.Delta

/-!
# Groups of a stream

Reading a stream has two halves.  The flat numbers are cut into groups of
five, and what is left over at the end is dropped.  The groups are then
resolved one after the other, each against the position of the one before it.

The first half loses nothing but the remainder, and the second half loses
nothing at all: a list of groups can be told from the tokens that it resolves
to, whatever sums wrap on the way.
-/

namespace SemanticTokens

namespace DeltaGroup

/-- The complete groups of a stream. -/
def ofNumbers : List UInt32 → List DeltaGroup
  | lineDelta :: startDelta :: length :: type :: mask :: rest =>
      ⟨lineDelta, startDelta, length, type, mask⟩ :: ofNumbers rest
  | _ => []

def resolveFrom (line start : UInt32) : List DeltaGroup → List Token
  | [] => []
  | group :: rest =>
      let token := resolve line start group
      token :: resolveFrom token.line token.start rest

/-! ## Cutting a stream into groups -/

@[simp]
theorem ofNumbers_numbers_append
    (group : DeltaGroup) (rest : List UInt32) :
    ofNumbers (group.numbers ++ rest) = group :: ofNumbers rest := by
  rfl

/-- Flat groups are cut back into themselves, whatever follows them. -/
theorem ofNumbers_flatMap_append
    (groups : List DeltaGroup) (rest : List UInt32) :
    ofNumbers (groups.flatMap numbers ++ rest) = groups ++ ofNumbers rest := by
  induction groups with
  | nil =>
      rfl
  | cons group remaining inductionHypothesis =>
      rw [List.flatMap_cons, List.append_assoc,
        ofNumbers_numbers_append, inductionHypothesis, List.cons_append]

@[simp]
theorem ofNumbers_flatMap_numbers
    (groups : List DeltaGroup) :
    ofNumbers (groups.flatMap numbers) = groups := by
  have cut : ofNumbers (groups.flatMap numbers ++ []) = groups ++ [] :=
    ofNumbers_flatMap_append groups []
  rwa [List.append_nil, List.append_nil] at cut

/-- The numbers of the complete groups are the stream without its remainder. -/
theorem flatMap_numbers_ofNumbers :
    ∀ data : List UInt32,
      (ofNumbers data).flatMap numbers =
        data.take (5 * (data.length / 5))
  | [] | [_] | [_, _] | [_, _, _] | [_, _, _, _] => by
      simp [ofNumbers]
  | lineDelta :: startDelta :: length :: type :: mask :: rest => by
      have count :
          5 * ((rest.length + 1 + 1 + 1 + 1 + 1) / 5) =
            5 * (rest.length / 5) + 1 + 1 + 1 + 1 + 1 := by
        omega
      simp only [ofNumbers, List.flatMap_cons, numbers,
        flatMap_numbers_ofNumbers rest, List.length_cons, count,
        List.take_succ_cons, List.cons_append, List.nil_append]

theorem length_ofNumbers :
    ∀ data : List UInt32, (ofNumbers data).length = data.length / 5
  | [] | [_] | [_, _] | [_, _, _] | [_, _, _, _] => by
      simp [ofNumbers]
  | lineDelta :: startDelta :: length :: type :: mask :: rest => by
      simp only [ofNumbers, List.length_cons, length_ofNumbers rest]
      omega

/-- Streams have the same complete groups exactly when they agree up to their
remainders. -/
theorem ofNumbers_eq_iff
    (left right : List UInt32) :
    ofNumbers left = ofNumbers right ↔
      left.take (5 * (left.length / 5)) =
        right.take (5 * (right.length / 5)) := by
  rw [← flatMap_numbers_ofNumbers left, ← flatMap_numbers_ofNumbers right]
  constructor
  · intro sameGroups
    rw [sameGroups]
  · intro sameNumbers
    have cut := congrArg ofNumbers sameNumbers
    simpa only [ofNumbers_flatMap_numbers] using cut

/-! ## Resolving groups -/

theorem length_resolveFrom
    (line start : UInt32) (groups : List DeltaGroup) :
    (resolveFrom line start groups).length = groups.length := by
  induction groups generalizing line start with
  | nil =>
      rfl
  | cons group rest inductionHypothesis =>
      simp only [resolveFrom, List.length_cons, inductionHypothesis]

/-- At a known position, a group can be told from its token. -/
theorem resolve_injective
    {line start : UInt32} {left right : DeltaGroup}
    (sameToken : resolve line start left = resolve line start right) :
    left = right := by
  cases left with
  | mk leftLine leftStart leftLength leftType leftMask =>
      cases right with
      | mk rightLine rightStart rightLength rightType rightMask =>
          simp only [resolve, Token.mk.injEq, UInt32.add_right_inj] at sameToken
          obtain ⟨rfl, sameStart, rfl, rfl, rfl⟩ := sameToken
          -- Equal line deltas choose the same branch for the column.
          by_cases sameLine : leftLine = 0
          · simp only [sameLine, if_true, UInt32.add_right_inj] at sameStart
            rw [sameStart]
          · simp only [sameLine, if_false] at sameStart
            rw [sameStart]

/-- Two runs that start at the same position and see the same tokens have
read the same groups. -/
theorem resolveFrom_injective
    {line start : UInt32} :
    ∀ {left right : List DeltaGroup},
      resolveFrom line start left = resolveFrom line start right →
        left = right
  | [], [], _ => rfl
  | [], _ :: _, sameTokens => by
      simp [resolveFrom] at sameTokens
  | _ :: _, [], sameTokens => by
      simp [resolveFrom] at sameTokens
  | leftHead :: leftTail, rightHead :: rightTail, sameTokens => by
      simp only [resolveFrom, List.cons.injEq] at sameTokens
      obtain ⟨sameHead, sameTail⟩ := sameTokens
      have headEqual : leftHead = rightHead := resolve_injective sameHead
      subst rightHead
      rw [resolveFrom_injective sameTail]

end DeltaGroup

namespace Delta

open DeltaGroup

/-- Reading a stream is cutting it into groups and resolving them. -/
theorem decodeFrom_eq_resolveFrom
    (line start : UInt32) (data : List UInt32) :
    decodeFrom line start data = resolveFrom line start (ofNumbers data) := by
  induction line, start, data using decodeFrom.induct with
  | case1 line start lineDelta startDelta length type mask rest token
      inductionHypothesis =>
      rw [decodeFrom, ofNumbers, resolveFrom, inductionHypothesis]
  | case2 line start data incomplete =>
      rw [decodeFrom, ofNumbers, resolveFrom]
      · exact incomplete
      · exact incomplete

theorem decode_eq_resolveFrom
    (data : List UInt32) :
    decode data = resolveFrom 0 0 (ofNumbers data) :=
  decodeFrom_eq_resolveFrom 0 0 data

theorem length_decode
    (data : List UInt32) :
    (decode data).length = data.length / 5 := by
  rw [decode_eq_resolveFrom, length_resolveFrom, length_ofNumbers]

/-- Streams are read alike exactly when they agree up to their remainders. -/
theorem decode_eq_iff
    (left right : List UInt32) :
    decode left = decode right ↔
      left.take (5 * (left.length / 5)) =
        right.take (5 * (right.length / 5)) := by
  rw [decode_eq_resolveFrom, decode_eq_resolveFrom, ← ofNumbers_eq_iff]
  constructor
  · exact resolveFrom_injective
  · intro sameGroups
    rw [sameGroups]

end Delta

end SemanticTokens
