import Mathlib.Data.List.Forall2
import SemanticTokens.Proofs.Delta.Groups

/-!
# Writing and reading streams

Writing highlights and reading them back restores every highlight, sorted or
not, because writer and reader keep the same running position: the absolute
line and column of the last token.  In the other direction, every stream whose
groups name a category and carry no foreign modifier bit is written again as
it was read, up to its remainder.
-/

namespace SemanticTokens

def Highlight.token (highlight : Highlight) : Token where
  line := highlight.line
  start := highlight.start
  length := highlight.length
  type := highlight.category.index
  mask := highlight.modifiers.bits

/-- The highlight that a token stands for, if its type names a category.
Foreign bits of the mask are dropped. -/
def Token.highlight? (token : Token) : Option Highlight :=
  (Category.ofIndex? token.type).map fun category =>
    ⟨token.line, token.start, token.length, category, .truncate token.mask⟩

@[simp]
theorem Highlight.highlight?_token
    (highlight : Highlight) :
    highlight.token.highlight? = some highlight := by
  simp [Highlight.token, Token.highlight?]

theorem map_highlight?_map_token
    (highlights : List Highlight) :
    (highlights.map Highlight.token).map Token.highlight? =
      highlights.map some := by
  rw [List.map_map]
  exact List.map_congr_left fun highlight _ => highlight.highlight?_token

namespace DeltaGroup

/-! ## From highlights to groups and back -/

/-- The reader undoes one step of the writer, at whatever position both
stand. -/
theorem resolve_between
    (line start : UInt32) (highlight : Highlight) :
    resolve line start (between line start highlight) =
      highlight.token := by
  have lineRestored : line + (highlight.line - line) = highlight.line := by
    rw [UInt32.add_comm, UInt32.sub_add_cancel]
  by_cases sameLine : highlight.line - line = 0
  · have startRestored :
        start + (highlight.start - start) = highlight.start := by
      rw [UInt32.add_comm, UInt32.sub_add_cancel]
    rw [sameLine] at lineRestored
    simp only [resolve, between, Highlight.token, sameLine, if_true,
      lineRestored, startRestored]
  · simp only [resolve, between, Highlight.token, sameLine, if_false,
      lineRestored]

/-- From a common position on, the reader restores every token of the writer:
after each step both stand at the last highlight. -/
theorem resolveFrom_encodeFrom
    (line start : UInt32) (highlights : List Highlight) :
    resolveFrom line start (encodeFrom line start highlights) =
      highlights.map Highlight.token := by
  induction highlights generalizing line start with
  | nil =>
      rfl
  | cons highlight rest inductionHypothesis =>
      simp only [encodeFrom, resolveFrom, resolve_between, List.map_cons]
      exact
        congrArg (List.cons highlight.token)
          (inductionHypothesis highlight.line highlight.start)

/-! ## From groups to highlights and back -/

/-- Whether a group names a category and has no modifier bit but the lowest. -/
def Meaningful (group : DeltaGroup) : Prop :=
  group.type < 6 ∧ group.mask &&& ~~~1 = 0

instance (group : DeltaGroup) : Decidable group.Meaningful :=
  inferInstanceAs (Decidable (_ ∧ _))

private theorem definedBits_eq_one : definedBits = 1 := by
  decide

theorem meaningful_between
    (line start : UInt32) (highlight : Highlight) :
    (between line start highlight).Meaningful := by
  constructor
  · change highlight.category.index < 6
    cases highlight.category <;> decide
  · have defined := highlight.modifiers.bits_defined
    change highlight.modifiers.bits &&& ~~~1 = 0
    rw [← defined, definedBits_eq_one, UInt32.and_assoc,
      UInt32.and_not_self, UInt32.and_zero]

theorem meaningful_of_mem_encodeFrom
    {line start : UInt32} {highlights : List Highlight} {group : DeltaGroup}
    (member : group ∈ encodeFrom line start highlights) :
    group.Meaningful := by
  induction highlights generalizing line start with
  | nil =>
      cases member
  | cons highlight rest inductionHypothesis =>
      rcases List.mem_cons.mp member with rfl | tailMember
      · exact meaningful_between line start highlight
      · exact inductionHypothesis tailMember

theorem truncate_bits_of_no_foreign_bit
    {mask : UInt32} (noForeignBit : mask &&& ~~~1 = 0) :
    (ModifierSet.truncate mask).bits = mask := by
  have parts : mask = (mask &&& 1) ||| (mask &&& ~~~1) := by
    apply UInt32.toBitVec_inj.mp
    simp only [UInt32.toBitVec_or, UInt32.toBitVec_and,
      UInt32.toBitVec_not, ← BitVec.and_or_distrib_left,
      BitVec.or_not_self, BitVec.and_allOnes]
  rw [noForeignBit, UInt32.or_zero] at parts
  change mask &&& definedBits = mask
  rw [definedBits_eq_one, ← parts]

/-- At any position, a meaningful group resolves to the token of some
highlight. -/
theorem exists_token_eq_resolve
    {group : DeltaGroup} (meaningful : group.Meaningful)
    (line start : UInt32) :
    ∃ highlight : Highlight, highlight.token = resolve line start group := by
  obtain ⟨typeBound, noForeignBit⟩ := meaningful
  obtain ⟨category, sameIndex⟩ := Category.exists_index_eq typeBound
  have sameMask := truncate_bits_of_no_foreign_bit noForeignBit
  refine
    ⟨⟨(resolve line start group).line, (resolve line start group).start,
      group.length, category, .truncate group.mask⟩, ?_⟩
  rw [Highlight.token, sameIndex, sameMask]
  rfl

theorem exists_map_token_eq_resolveFrom
    (groups : List DeltaGroup)
    (meaningful : ∀ group ∈ groups, group.Meaningful)
    (line start : UInt32) :
    ∃ highlights : List Highlight,
      highlights.map Highlight.token = resolveFrom line start groups := by
  induction groups generalizing line start with
  | nil =>
      exact ⟨[], rfl⟩
  | cons group rest inductionHypothesis =>
      obtain ⟨head, headToken⟩ :=
        exists_token_eq_resolve (meaningful group List.mem_cons_self) line start
      obtain ⟨tail, tailTokens⟩ :=
        inductionHypothesis
          (fun other member =>
            meaningful other (List.mem_cons_of_mem group member))
          (resolve line start group).line (resolve line start group).start
      refine ⟨head :: tail, ?_⟩
      rw [List.map_cons, headToken, tailTokens, resolveFrom]

/-- The writer undoes the reader: highlights whose tokens are read from groups
are written as these groups. -/
theorem encodeFrom_eq_of_map_token_eq
    {line start : UInt32} {highlights : List Highlight}
    {groups : List DeltaGroup}
    (sameTokens :
      highlights.map Highlight.token = resolveFrom line start groups) :
    encodeFrom line start highlights = groups := by
  apply resolveFrom_injective
  rw [resolveFrom_encodeFrom, sameTokens]

end DeltaGroup

namespace Delta

open DeltaGroup

/-- Reading what was written gives the token of every highlight. -/
theorem decode_encode
    (highlights : List Highlight) :
    decode (encode highlights) = highlights.map Highlight.token := by
  rw [decode_eq_resolveFrom, encode, ofNumbers_flatMap_numbers, groups,
    resolveFrom_encodeFrom]

/-- A list of highlights in any order is read back token by token: the
wrapping differences of positions that go backwards are undone by the wrapping
sums. -/
theorem decode_encode_in_any_order
    (highlights : List Highlight) :
    List.Forall₂
      (fun token highlight =>
        token.line = highlight.line ∧
          token.start = highlight.start ∧
          token.length = highlight.length ∧
          token.type = highlight.category.index ∧
          token.mask = highlight.modifiers.bits)
      (decode (encode highlights)) highlights := by
  rw [decode_encode, List.forall₂_map_left_iff, List.forall₂_same]
  intro highlight _
  exact ⟨rfl, rfl, rfl, rfl, rfl⟩

theorem length_encode
    (highlights : List Highlight) :
    (encode highlights).length = 5 * highlights.length := by
  have read := congrArg List.length (decode_encode highlights)
  have whole := flatMap_numbers_ofNumbers (encode highlights)
  rw [encode, ofNumbers_flatMap_numbers, ← encode] at whole
  have complete := congrArg List.length whole
  rw [length_decode, List.length_map] at read
  rw [List.length_take] at complete
  omega

theorem encode_injective
    {left right : List Highlight}
    (sameStream : encode left = encode right) :
    left = right := by
  have sameHighlights : left.map some = right.map some := by
    rw [← map_highlight?_map_token, ← map_highlight?_map_token,
      ← decode_encode, ← decode_encode, sameStream]
  exact (List.map_inj_right fun _ _ => Option.some.inj).mp sameHighlights

/-- Reading and writing are inverse to each other between lists of highlights
and streams of complete meaningful groups: such a stream turns into the one
list that is written as this stream, and every list is written as such a stream
and read back.  A remainder of less than five numbers is dropped. -/
theorem encode_decode_of_meaningful
    (data : List UInt32)
    (meaningful : ∀ group ∈ ofNumbers data, group.Meaningful) :
    (∃ highlights,
        (decode data).map Token.highlight? = highlights.map some ∧
          encode highlights = data.take (5 * (data.length / 5)) ∧
          ∀ other, encode other = data.take (5 * (data.length / 5)) →
            other = highlights) ∧
      ∀ highlights : List Highlight,
        (∀ group ∈ ofNumbers (encode highlights), group.Meaningful) ∧
          (encode highlights).length = 5 * highlights.length ∧
          (decode (encode highlights)).map Token.highlight? =
            highlights.map some := by
  obtain ⟨highlights, sameTokens⟩ :=
    exists_map_token_eq_resolveFrom (ofNumbers data) meaningful 0 0
  have stream : encode highlights = data.take (5 * (data.length / 5)) := by
    rw [encode, groups, encodeFrom_eq_of_map_token_eq sameTokens,
      flatMap_numbers_ofNumbers]
  refine ⟨⟨highlights, ?_, stream, ?_⟩, ?_⟩
  · rw [decode_eq_resolveFrom, ← sameTokens, map_highlight?_map_token]
  · intro other sameStream
    exact encode_injective (sameStream.trans stream.symm)
  · intro any
    refine ⟨?_, length_encode any, ?_⟩
    · intro group member
      rw [encode, ofNumbers_flatMap_numbers] at member
      exact meaningful_of_mem_encodeFrom member
    · rw [decode_encode, map_highlight?_map_token]

/-- The line of the second group wraps back to zero, and a number is left
over. -/
theorem encode_decode_of_wrapping_line :
    (∀ group ∈ ofNumbers [1, 7, 3, 5, 1, 4294967295, 4, 2, 0, 0, 9],
        group.Meaningful) ∧
      ∃ highlights,
        (decode [1, 7, 3, 5, 1, 4294967295, 4, 2, 0, 0, 9]).map
            Token.highlight? = highlights.map some ∧
          encode highlights = [1, 7, 3, 5, 1, 4294967295, 4, 2, 0, 0] ∧
          ∀ other, encode other = [1, 7, 3, 5, 1, 4294967295, 4, 2, 0, 0] →
            other = highlights :=
  ⟨by decide, (encode_decode_of_meaningful _ (by decide)).1⟩

end Delta

end SemanticTokens
