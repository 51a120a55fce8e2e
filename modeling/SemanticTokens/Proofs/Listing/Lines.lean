import SemanticTokens.Listing
import SemanticTokens.Proofs.Delta.Groups
import SemanticTokens.Proofs.Legend.Names
import SemanticTokens.Proofs.Text.Lines

/-!
# The lines of a listing

Under the standard legend every line of a listing is printable, whatever the
source document holds, so that the listing can be taken apart at its line feeds
again: it has one line for each complete group of the stream.
-/

namespace SemanticTokens.Listing

open Text

/-! ## One line -/

/-- The characters of a line, field by field. -/
theorem toList_line
    (legend : Legend) (number : Nat) (token : Token)
    (covered : Option (List Char)) :
    (line legend number token covered).toList =
      '#' :: (ordinal number).toList ++ ' ' :: 'L' ::
        (Nat.toDigits 10 token.line.toNat ++ ':' ::
          (Nat.toDigits 10 token.start.toNat ++
            ' ' :: 'l' :: 'e' :: 'n' :: '=' ::
              (Nat.toDigits 10 token.length.toNat ++ ' ' ::
                ((legend.nameOfType token.type).toList ++
                  ((modifierPart legend token.mask).toList ++
                    (coveredPart covered).toList))))) := by
  delta line
  simp [String.toList_append, Nat.toString_eq_repr, Nat.toList_repr]

theorem allPrintable_ordinal
    (number : Nat) :
    AllPrintable (ordinal number).toList := by
  rw [ordinal, String.toList_append, String.toList_ofList,
    allPrintable_append_iff]
  refine ⟨?_, allPrintable_toString number⟩
  intro character member
  rw [List.eq_of_mem_replicate member]
  decide

theorem allPrintable_nameOfType
    (type : UInt32) :
    AllPrintable (Legend.standard.nameOfType type).toList :=
  fun _ member =>
    Legend.isUnprintable_of_isNameChar (Legend.isNameChar_nameOfType member)

theorem toList_modifierPart
    (legend : Legend) (mask : UInt32) :
    (modifierPart legend mask).toList =
      if (legend.namesOfMask mask).isEmpty then []
      else
        ' ' :: '[' ::
          ([','].intercalate ((legend.namesOfMask mask).map String.toList) ++
            [']']) := by
  rw [modifierPart]
  by_cases noName : (legend.namesOfMask mask).isEmpty = true
  · rw [if_pos noName, if_pos noName]
    rfl
  · rw [if_neg noName, if_neg noName, String.toList_append,
      String.toList_append, String.toList_intercalate]
    rfl

theorem allPrintable_modifierPart
    (mask : UInt32) :
    AllPrintable (modifierPart Legend.standard mask).toList := by
  rw [toList_modifierPart]
  by_cases noName : (Legend.standard.namesOfMask mask).isEmpty = true
  · rw [if_pos noName]
    exact allPrintable_nil
  · have names :
        AllPrintable
          ([','].intercalate
            ((Legend.standard.namesOfMask mask).map String.toList)) := by
      apply allPrintable_intercalate (by decide)
      intro name nameMember character member
      exact
        Legend.isUnprintable_of_isNameChar
          (Legend.isNameChar_of_mem_namesOfMask nameMember member)
    rw [if_neg noName, allPrintable_cons_iff, allPrintable_cons_iff,
      allPrintable_append_iff]
    exact ⟨by decide, by decide, names, by decide⟩

theorem toList_coveredPart_some
    (text : List Char) :
    (coveredPart (some text)).toList = ' ' :: (quoted text).toList := by
  rw [coveredPart, String.toList_append]
  rfl

theorem allPrintable_coveredPart
    (covered : Option (List Char)) :
    AllPrintable (coveredPart covered).toList := by
  cases covered with
  | none =>
      exact allPrintable_nil
  | some text =>
      rw [toList_coveredPart_some, allPrintable_cons_iff]
      exact ⟨by decide, allPrintable_quoted text⟩

/-- A line shows printable characters only. -/
theorem allPrintable_line
    (number : Nat) (token : Token) (covered : Option (List Char)) :
    AllPrintable (line Legend.standard number token covered).toList := by
  have digits (value : Nat) := allPrintable_toDigits 10 (by decide) value
  simp only [toList_line, List.cons_append, allPrintable_cons_iff,
    allPrintable_append_iff, allPrintable_ordinal, digits,
    allPrintable_nameOfType, allPrintable_modifierPart,
    allPrintable_coveredPart]
  decide

theorem toList_line_ne_nil
    (legend : Legend) (number : Nat) (token : Token)
    (covered : Option (List Char)) :
    (line legend number token covered).toList ≠ [] := by
  rw [toList_line]
  exact List.cons_ne_nil _ _

/-! ## All lines -/

theorem length_lines
    (data : List UInt32) (source : Option String) (unit : CodeUnit)
    (legend : Legend) :
    (lines data source unit legend).length = data.length / 5 := by
  rw [lines, List.length_mapIdx, Delta.length_decode]

theorem exists_of_mem_lines
    {data : List UInt32} {source : Option String} {unit : CodeUnit}
    {legend : Legend} {shown : String}
    (member : shown ∈ lines data source unit legend) :
    ∃ number token covered, shown = line legend number token covered := by
  obtain ⟨index, bound, rfl⟩ := List.getElem_of_mem member
  simp only [lines, List.getElem_mapIdx]
  exact ⟨_, _, _, rfl⟩

theorem toList_text
    (data : List UInt32) (source : Option String) (unit : CodeUnit)
    (legend : Legend) :
    (text data source unit legend).toList =
      ['\n'].intercalate ((lines data source unit legend).map String.toList) := by
  rw [text, String.toList_intercalate]
  rfl

private theorem allPrintable_of_mem_lines
    {data : List UInt32} {source : Option String} {unit : CodeUnit} :
    ∀ shown ∈ (lines data source unit Legend.standard).map String.toList,
      AllPrintable shown := by
  intro shown member
  obtain ⟨_, lineMember, rfl⟩ := List.mem_map.mp member
  obtain ⟨number, token, covered, rfl⟩ := exists_of_mem_lines lineMember
  exact allPrintable_line number token covered

private theorem ne_nil_of_mem_lines
    {data : List UInt32} {source : Option String} {unit : CodeUnit} :
    ∀ shown ∈ (lines data source unit Legend.standard).map String.toList,
      shown ≠ [] := by
  intro shown member
  obtain ⟨_, lineMember, rfl⟩ := List.mem_map.mp member
  obtain ⟨number, token, covered, rfl⟩ := exists_of_mem_lines lineMember
  exact toList_line_ne_nil Legend.standard number token covered

/-- Reading the lines of a listing gives the lines that were joined. -/
theorem lines_toList_text
    (data : List UInt32) (source : Option String) (unit : CodeUnit) :
    Text.lines (text data source unit Legend.standard).toList =
      (lines data source unit Legend.standard).map String.toList := by
  rw [toList_text]
  exact lines_intercalate allPrintable_of_mem_lines ne_nil_of_mem_lines

/-- Cutting a listing at every line feed gives the lines that were joined, if
there are any. -/
theorem splitOn_newline_toList_text
    {data : List UInt32} (complete : 5 ≤ data.length)
    (source : Option String) (unit : CodeUnit) :
    (text data source unit Legend.standard).toList.splitOn '\n' =
      (lines data source unit Legend.standard).map String.toList := by
  rw [toList_text]
  apply splitOn_newline_intercalate allPrintable_of_mem_lines
  intro empty
  have noLine := congrArg List.length empty
  rw [List.length_map, length_lines, List.length_nil] at noLine
  omega

end SemanticTokens.Listing
