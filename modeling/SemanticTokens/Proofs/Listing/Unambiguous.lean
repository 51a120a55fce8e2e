import SemanticTokens.Proofs.Listing.Lines

/-!
# Listings tell streams apart

Under the standard legend each line of a listing determines its token, because
every field ends where something begins that cannot belong to it.  Lines are
determined by the whole listing, tokens determine the groups of the stream, and
so two streams with the same listing agree up to their remainders.
-/

namespace SemanticTokens.Listing

open Text

/-! ## Modifiers before the covered text -/

/-- The covered text never begins like the modifiers. -/
theorem toList_coveredPart_ne_bracket
    (covered : Option (List Char)) (rest : List Char) :
    (coveredPart covered).toList ≠ ' ' :: '[' :: rest := by
  cases covered with
  | none =>
      exact nofun
  | some text =>
      intro same
      rw [toList_coveredPart_some, quoted, String.toList_ofList] at same
      have sameSecond := (List.cons.inj (List.cons.inj same).2).1
      revert sameSecond
      decide

private theorem not_mem_joinedNames
    (forbidden : Char) (noComma : forbidden ≠ ',')
    (noNameChar : Legend.isNameChar forbidden = false) (mask : UInt32) :
    forbidden ∉
      [','].intercalate
        ((Legend.standard.namesOfMask mask).map String.toList) := by
  intro member
  have free :
      ∀ character ∈
          [','].intercalate
            ((Legend.standard.namesOfMask mask).map String.toList),
        character ≠ forbidden := by
    apply forall_mem_intercalate
    · intro character isComma
      rw [List.eq_of_mem_singleton isComma]
      exact noComma.symm
    · intro name nameMember character member
      have nameChar :=
        Legend.isNameChar_of_mem_namesOfMask nameMember member
      rintro rfl
      rw [noNameChar] at nameChar
      cases nameChar
  exact free forbidden member rfl

/-- Names without commas can be told from their joined text. -/
private theorem namesOfMask_eq_of_joinedNames_eq
    {left right : UInt32}
    (leftNamed : Legend.standard.namesOfMask left ≠ [])
    (rightNamed : Legend.standard.namesOfMask right ≠ [])
    (same :
      [','].intercalate
          ((Legend.standard.namesOfMask left).map String.toList) =
        [','].intercalate
          ((Legend.standard.namesOfMask right).map String.toList)) :
    Legend.standard.namesOfMask left = Legend.standard.namesOfMask right := by
  have noComma (mask : UInt32) :
      ∀ name ∈ (Legend.standard.namesOfMask mask).map String.toList,
        ',' ∉ name := by
    intro name nameMember member
    have nameChar :=
      Legend.isNameChar_of_mem_namesOfMask nameMember member
    revert nameChar
    decide
  have samePieces := congrArg (List.splitOn ',') same
  rw [List.splitOn_intercalate ',' (noComma left) (by simpa using leftNamed),
    List.splitOn_intercalate ',' (noComma right) (by simpa using rightNamed)]
    at samePieces
  exact (List.map_inj_right fun _ _ => String.toList_inj.mp).mp samePieces

/-- The part between the type and the end of a line determines the mask,
whatever text the token covers. -/
theorem modifierPart_append_inj
    {left right : UInt32} {leftCovered rightCovered : Option (List Char)}
    (same :
      (modifierPart Legend.standard left).toList ++
          (coveredPart leftCovered).toList =
        (modifierPart Legend.standard right).toList ++
          (coveredPart rightCovered).toList) :
    left = right := by
  apply Legend.namesOfMask_injective
  rw [toList_modifierPart, toList_modifierPart] at same
  by_cases leftEmpty : (Legend.standard.namesOfMask left).isEmpty = true
  · by_cases rightEmpty : (Legend.standard.namesOfMask right).isEmpty = true
    · rw [List.isEmpty_iff.mp leftEmpty, List.isEmpty_iff.mp rightEmpty]
    · rw [if_pos leftEmpty, if_neg rightEmpty, List.nil_append] at same
      exact (toList_coveredPart_ne_bracket leftCovered _ same).elim
  · by_cases rightEmpty : (Legend.standard.namesOfMask right).isEmpty = true
    · rw [if_neg leftEmpty, if_pos rightEmpty, List.nil_append] at same
      exact (toList_coveredPart_ne_bracket rightCovered _ same.symm).elim
    · rw [if_neg leftEmpty, if_neg rightEmpty] at same
      simp only [List.cons_append, List.append_assoc, List.nil_append,
        List.cons.injEq, true_and] at same
      have leftFree := not_mem_joinedNames ']' (by decide) (by decide) left
      have rightFree := not_mem_joinedNames ']' (by decide) (by decide) right
      obtain ⟨sameJoined, _⟩ := append_delimiter_inj leftFree rightFree same
      exact
        namesOfMask_eq_of_joinedNames_eq
          (fun none => leftEmpty (List.isEmpty_iff.mpr none))
          (fun none => rightEmpty (List.isEmpty_iff.mpr none))
          sameJoined

/-! ## Lines and listings -/

private theorem stops_modifierPart_append
    (mask : UInt32) (covered : Option (List Char)) :
    Stops (· != ' ')
      ((modifierPart Legend.standard mask).toList ++
        (coveredPart covered).toList) := by
  rw [toList_modifierPart]
  by_cases noName : (Legend.standard.namesOfMask mask).isEmpty = true
  · rw [if_pos noName, List.nil_append]
    cases covered with
    | none =>
        exact nofun
    | some text =>
        rw [toList_coveredPart_some]
        exact stops_cons (· != ' ') (by decide) _
  · rw [if_neg noName]
    exact stops_cons (· != ' ') (by decide) _

/-- Lines with the same number show the same token. -/
theorem line_injective
    {number : Nat} {left right : Token}
    {leftCovered rightCovered : Option (List Char)}
    (same :
      line Legend.standard number left leftCovered =
        line Legend.standard number right rightCovered) :
    left = right := by
  have sameText := congrArg String.toList same
  rw [toList_line, toList_line] at sameText
  have sameFields := List.append_cancel_left sameText
  simp only [List.cons.injEq, true_and] at sameFields
  obtain ⟨sameLine, sameAfterLine⟩ :=
    toDigits_append_inj (stops_cons _ (by decide) _)
      (stops_cons _ (by decide) _) sameFields
  obtain ⟨sameStart, sameAfterStart⟩ :=
    toDigits_append_inj (stops_cons _ (by decide) _)
      (stops_cons _ (by decide) _) (List.cons.inj sameAfterLine).2
  simp only [List.cons.injEq, true_and] at sameAfterStart
  obtain ⟨sameLength, sameAfterLength⟩ :=
    toDigits_append_inj (stops_cons _ (by decide) _)
      (stops_cons _ (by decide) _) sameAfterStart
  obtain ⟨sameType, sameAfterType⟩ :=
    Legend.nameOfType_append_inj
      (stops_modifierPart_append left.mask leftCovered)
      (stops_modifierPart_append right.mask rightCovered)
      (List.cons.inj sameAfterLength).2
  have sameMask := modifierPart_append_inj sameAfterType
  cases left with
  | mk leftLine leftStart leftLength leftType leftMask =>
      cases right with
      | mk rightLine rightStart rightLength rightType rightMask =>
          rw [Token.mk.injEq]
          exact
            ⟨UInt32.toNat_inj.mp sameLine, UInt32.toNat_inj.mp sameStart,
              UInt32.toNat_inj.mp sameLength, sameType, sameMask⟩

/-- Equal lines of two listings show the same tokens in the same order. -/
theorem decode_eq_of_lines_eq
    {left right : List UInt32} {source : Option String} {unit : CodeUnit}
    (same :
      lines left source unit Legend.standard =
        lines right source unit Legend.standard) :
    Delta.decode left = Delta.decode right := by
  apply List.ext_getElem?
  intro index
  have sameLine := congrArg (·[index]?) same
  simp only [lines, List.getElem?_mapIdx] at sameLine
  cases leftToken : (Delta.decode left)[index]? with
  | none =>
      rw [leftToken, Option.map_none, eq_comm, Option.map_eq_none_iff]
        at sameLine
      exact sameLine.symm
  | some token =>
      rw [leftToken, Option.map_some, eq_comm, Option.map_eq_some_iff]
        at sameLine
      obtain ⟨other, rightToken, otherLine⟩ := sameLine
      rw [rightToken, line_injective otherLine]

/-- Listings over the same source agree exactly when their streams agree up to
their remainders. -/
theorem text_eq_iff
    (left right : List UInt32) (source : Option String) (unit : CodeUnit) :
    text left source unit Legend.standard =
        text right source unit Legend.standard ↔
      left.take (5 * (left.length / 5)) =
        right.take (5 * (right.length / 5)) := by
  rw [← Delta.decode_eq_iff]
  constructor
  · intro sameText
    have sameLines :=
      congrArg (fun listing => Text.lines listing.toList) sameText
    simp only [lines_toList_text] at sameLines
    exact
      decode_eq_of_lines_eq
        ((List.map_inj_right fun _ _ => String.toList_inj.mp).mp sameLines)
  · intro sameTokens
    rw [text, text, lines, lines, sameTokens]

/-- A listing over any source tells its stream apart from every other one,
up to remainders, and has one line for each complete group: no character of
the source can add a line or hide one. -/
theorem text_determines_stream
    (left right : List UInt32) (source : Option String) (unit : CodeUnit) :
    (text left source unit Legend.standard =
          text right source unit Legend.standard ↔
        left.take (5 * (left.length / 5)) =
          right.take (5 * (right.length / 5))) ∧
      ∀ data : List UInt32, 5 ≤ data.length →
        (text data source unit Legend.standard).toList.splitOn '\n' =
            (lines data source unit Legend.standard).map String.toList ∧
          (lines data source unit Legend.standard).length =
            data.length / 5 := by
  refine ⟨text_eq_iff left right source unit, ?_⟩
  intro data complete
  exact
    ⟨splitOn_newline_toList_text complete source unit,
      length_lines data source unit Legend.standard⟩

/-- The covered text spans a carriage return, and two numbers are left over. -/
theorem text_determines_stream_over_carriage_return :
    5 ≤ [0, 0, 3, 42, 3, 0, 0].length ∧
      ((text [0, 0, 3, 42, 3, 0, 0] (some "a\rb\nc") .utf8
        Legend.standard).toList.splitOn '\n').length = 1 := by
  have complete : 5 ≤ ([0, 0, 3, 42, 3, 0, 0] : List UInt32).length := by
    decide
  obtain ⟨pieces, count⟩ :=
    (text_determines_stream [] [] (some "a\rb\nc") .utf8).2 _ complete
  refine ⟨complete, ?_⟩
  rw [pieces, List.length_map, count]
  rfl

end SemanticTokens.Listing
