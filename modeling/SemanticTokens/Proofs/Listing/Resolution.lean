import Mathlib.Data.List.Perm.Basic
import SemanticTokens.Proofs.Collection.Examination
import SemanticTokens.Proofs.Delta.RoundTrip
import SemanticTokens.Proofs.Listing.Lines

/-!
# The standard legend names every token

Whatever names are collected, a client that knows nothing but the standard
legend can tell what the tokens of their stream are: each type number leads to
the name of the category of one of the names, and each mask holds only bits
that the legend knows.  A listing therefore never falls back on a number.
-/

namespace SemanticTokens

/-! ## Masks of known modifiers -/

theorem ModifierSet.bits_eq_zero_or_one
    (set : ModifierSet) :
    set.bits = 0 ∨ set.bits = 1 := by
  have onlyLowest : set.bits &&& 1 = set.bits := set.bits_defined
  have remainder : set.bits.toNat % 2 = set.bits.toNat := by
    have sameNumber := congrArg UInt32.toNat onlyLowest
    rwa [UInt32.toNat_and, show (1 : UInt32).toNat = 1 from rfl,
      Nat.and_one_is_mod] at sameNumber
  have small : set.bits.toNat = 0 ∨ set.bits.toNat = 1 := by
    omega
  rcases small with isZero | isOne
  · exact Or.inl (UInt32.toNat_inj.mp isZero)
  · exact Or.inr (UInt32.toNat_inj.mp isOne)

namespace Legend

theorem types_getElem?_index
    (category : Category) :
    standard.types[category.index.toNat]? = some category.name := by
  cases category <;> rfl

theorem nameOfType_index
    (category : Category) :
    standard.nameOfType category.index = category.name := by
  rw [nameOfType, types_getElem?_index, Option.getD_some]

theorem testBit_bits_of_length_le
    (set : ModifierSet) {bit : Nat}
    (beyond : standard.modifiers.length ≤ bit) :
    set.bits.toNat.testBit bit = false := by
  have above : 0 < bit := beyond
  rcases set.bits_eq_zero_or_one with isZero | isOne
  · rw [isZero]
    exact Nat.zero_testBit bit
  · rw [isOne, Bool.eq_false_iff]
    intro isSet
    exact
      Nat.ne_of_gt above (Nat.testBit_one_eq_true_iff_self_eq_zero.mp isSet)

end Legend

/-! ## Tokens of collected names -/

namespace Collection

/-- The highlights of a collection belong one by one to the names that are not
skipped, in some order of these. -/
theorem exists_perm_forall₂_highlights
    (occurrences : List Occurrence) (policy : CollectionPolicy) :
    ∃ named : List Occurrence,
      named.Perm
          (occurrences.filter fun occurrence =>
            (occurrence.examine policy).highlight.isSome) ∧
        List.Forall₂
          (fun highlight occurrence =>
            (occurrence.examine policy).highlight = some highlight)
          (ofOccurrences occurrences policy).highlights named := by
  have inOrder :
      List.Forall₂
        (fun highlight occurrence =>
          (occurrence.examine policy).highlight = some highlight)
        (emitted policy occurrences)
        (occurrences.filter fun occurrence =>
          (occurrence.examine policy).highlight.isSome) := by
    induction occurrences with
    | nil =>
        exact .nil
    | cons occurrence rest inductionHypothesis =>
        rw [emitted, List.filterMap_cons, List.filter_cons]
        cases examined : (occurrence.examine policy).highlight with
        | none =>
            exact inductionHypothesis
        | some highlight =>
            exact .cons examined inductionHypothesis
  have permuted :
      (ofOccurrences occurrences policy).highlights.Perm
        (emitted policy occurrences) := by
    cases sorts : policy.sortsByPosition with
    | true =>
        rw [highlights_of_sorts occurrences sorts]
        exact List.mergeSort_perm _ _
    | false =>
        rw [highlights_of_not_sorts occurrences sorts]
  obtain ⟨named, matched, sameNames⟩ :=
    List.perm_comp_forall₂ permuted inOrder
  exact ⟨named, sameNames, matched⟩

end Collection

/-! ## Lines without a source -/

namespace Listing

theorem modifierPart_bits
    (set : ModifierSet) :
    modifierPart Legend.standard set.bits =
      if set.contains .declaration then " [declaration]" else "" := by
  rw [ModifierSet.contains]
  rcases set.bits_eq_zero_or_one with isZero | isOne
  · rw [isZero]
    decide
  · rw [isOne]
    decide

/-- The line of a highlight in a listing that shows no text. -/
def lineOf (number : Nat) (highlight : Highlight) : String :=
  "#" ++ ordinal number ++ " L" ++ toString highlight.line.toNat ++ ":" ++
    toString highlight.start.toNat ++ " len=" ++
    toString highlight.length.toNat ++ " " ++ highlight.category.name ++
    if highlight.modifiers.contains .declaration then " [declaration]" else ""

theorem line_token_none
    (number : Nat) (highlight : Highlight) :
    line Legend.standard number highlight.token none =
      lineOf number highlight := by
  have typeName :
      Legend.standard.nameOfType highlight.token.type =
        highlight.category.name :=
    Legend.nameOfType_index highlight.category
  have modifierNames :
      modifierPart Legend.standard highlight.token.mask =
        if highlight.modifiers.contains .declaration then " [declaration]"
        else "" :=
    modifierPart_bits highlight.modifiers
  delta line lineOf
  rw [typeName, modifierNames, coveredPart, String.append_empty]
  rfl

theorem textUnder?_nil
    (unit : CodeUnit) (token : Token) :
    textUnder? [] unit token = none := by
  rw [textUnder?, List.getElem?_nil]
  rfl

theorem lines_encode_none
    (highlights : List Highlight) (unit : CodeUnit) :
    lines (Delta.encode highlights) none unit Legend.standard =
      highlights.mapIdx fun index highlight =>
        lineOf (index + 1) highlight := by
  rw [lines, Delta.decode_encode]
  apply List.ext_getElem?
  intro index
  rw [List.getElem?_mapIdx, List.getElem?_mapIdx, List.getElem?_map,
    Option.map_map]
  cases highlights[index]? with
  | none =>
      rw [Option.map_none, Option.map_none]
  | some highlight =>
      rw [Option.map_some, Option.map_some, Function.comp_apply,
        Option.map_none, Option.getD_none, textUnder?_nil, line_token_none]

/-- No line shows a fallback name. -/
theorem bracket_not_mem_lineOf
    (number : Nat) (highlight : Highlight) :
    '<' ∉ (lineOf number highlight).toList := by
  have noDigit (value : Nat) : '<' ∉ (toString value).toList := by
    rw [Nat.toString_eq_repr, Nat.toList_repr]
    exact (Text.isField_toDigits_ten (by decide) value).2
  have notOrdinal : '<' ∉ (ordinal number).toList := by
    rw [ordinal, String.toList_append, String.toList_ofList,
      List.mem_append, not_or]
    refine ⟨?_, noDigit number⟩
    intro member
    have isZero := List.eq_of_mem_replicate member
    revert isZero
    decide
  have notName : '<' ∉ highlight.category.name.toList := by
    cases highlight.category <;> decide
  have notModifier :
      '<' ∉
        (if highlight.modifiers.contains .declaration then " [declaration]"
          else "").toList := by
    cases highlight.modifiers.contains .declaration <;> decide
  delta lineOf
  simp only [String.toList_append, List.mem_append, not_or]
  refine
    ⟨⟨⟨⟨⟨⟨⟨⟨⟨⟨?_, notOrdinal⟩, ?_⟩, noDigit _⟩, ?_⟩, noDigit _⟩, ?_⟩,
      noDigit _⟩, ?_⟩, notName⟩, notModifier⟩
  all_goals decide

/-- Every token of the stream of some names is the token of one of them, its
type number leads to the name of the category found for that name, and its mask
has no bit beyond the modifiers of the legend.  So each line of a listing
without a source shows where its highlight stands and how long it is, the name
of the category, and that it declares exactly if it does. -/
theorem standard_resolves_every_token
    (occurrences : List Occurrence) (policy : CollectionPolicy) :
    (∃ named : List Occurrence,
        named.Perm
            (occurrences.filter fun occurrence =>
              (occurrence.examine policy).highlight.isSome) ∧
          List.Forall₂
            (fun token occurrence =>
              ∃ category,
                (occurrence.categorize policy.inferenceLimit).category =
                    some category ∧
                  (occurrence.examine policy).highlight.map
                      Highlight.token = some token ∧
                  Legend.standard.types[token.type.toNat]? =
                    some category.name ∧
                  ∀ bit, Legend.standard.modifiers.length ≤ bit →
                    token.mask.toNat.testBit bit = false)
            (Delta.decode
              (Delta.encode
                (Collection.ofOccurrences occurrences policy).highlights))
            named) ∧
      ∀ (highlights : List Highlight) (unit : CodeUnit),
        Text.lines
            (text (Delta.encode highlights) none unit
              Legend.standard).toList =
          (highlights.mapIdx fun index highlight =>
            "#" ++ ordinal (index + 1) ++
              " L" ++ toString highlight.line.toNat ++
              ":" ++ toString highlight.start.toNat ++
              " len=" ++ toString highlight.length.toNat ++
              " " ++ highlight.category.name ++
              if highlight.modifiers.contains .declaration then
                " [declaration]"
              else "").map String.toList ∧
        '<' ∉ (text (Delta.encode highlights) none unit
              Legend.standard).toList := by
  refine ⟨?_, ?_⟩
  · obtain ⟨named, sameNames, matched⟩ :=
      Collection.exists_perm_forall₂_highlights occurrences policy
    refine ⟨named, sameNames, ?_⟩
    rw [Delta.decode_encode, List.forall₂_map_left_iff]
    apply matched.imp
    intro highlight occurrence examined
    obtain ⟨line, column, category, _, categorized, _, rfl⟩ :=
      (occurrence.highlight_examine_eq_some_iff policy highlight).mp examined
    refine
      ⟨category, categorized, ?_, Legend.types_getElem?_index category, ?_⟩
    · rw [examined, Option.map_some]
    · exact fun _ => Legend.testBit_bits_of_length_le occurrence.modifiers
  · intro highlights unit
    have shown := lines_encode_none highlights unit
    refine ⟨?_, ?_⟩
    · rw [lines_toList_text, shown]
      rfl
    · intro member
      rw [toList_text, shown] at member
      have noBracket :
          ∀ character ∈
              ['\n'].intercalate
                ((highlights.mapIdx fun index highlight =>
                  lineOf (index + 1) highlight).map String.toList),
            character ≠ '<' := by
        apply Text.forall_mem_intercalate
        · exact List.forall_mem_singleton.mpr (by decide)
        · intro piece pieceMember character inPiece
          obtain ⟨_, lineMember, rfl⟩ := List.mem_map.mp pieceMember
          obtain ⟨index, bound, rfl⟩ := List.getElem_of_mem lineMember
          rw [List.getElem_mapIdx] at inPiece
          exact ne_of_mem_of_not_mem inPiece (bracket_not_mem_lineOf _ _)
      exact noBracket '<' member rfl

end Listing

end SemanticTokens
