import SemanticTokens.NameRecord.Printer
import SemanticTokens.Proofs.CodeUnit.Cuts
import SemanticTokens.Proofs.Collection.Examination
import SemanticTokens.Proofs.Delta.RoundTrip
import SemanticTokens.Proofs.Listing.Lines

/-!
# Listings of collected names

A name stands in a source if the line it names contains it at the column it
names, counted in the units of the listing.  When all highlighted names stand
in the source, the listing of their stream shows at the end of each line the
very name that the line is about: positions survive sorting, encoding and
decoding, and the range that they give is cut out at the right units.
-/

namespace SemanticTokens

namespace Occurrence

/-- Whether a name is found in a source at its own line and column. -/
def StandsIn (occurrence : Occurrence) (source : String) (unit : CodeUnit) :
    Prop :=
  ∃ line column before after,
    occurrence.position? = some (line, column) ∧
      (Text.lines source.toList)[line.toNat]? =
        some (before ++ occurrence.text.toList ++ after) ∧
      column.toNat = unit.size before ∧
      unit.size occurrence.text.toList < UInt32.size

end Occurrence

namespace Listing

/-- The token of a highlighted name covers the name. -/
theorem textUnder?_token
    {occurrence : Occurrence} {policy : CollectionPolicy}
    {highlight : Highlight} {source : String}
    (highlighted : (occurrence.examine policy).highlight = some highlight)
    (stands : occurrence.StandsIn source policy.unit) :
    textUnder? (Text.lines source.toList) policy.unit highlight.token =
      some occurrence.text.toList := by
  obtain ⟨line, column, category, position, _, measured, rfl⟩ :=
    (occurrence.highlight_examine_eq_some_iff policy highlight).mp
      highlighted
  obtain ⟨sourceLine, sourceColumn, before, after, sourcePosition, found,
    begins, fits⟩ := stands
  rw [position, Option.some.injEq, Prod.mk.injEq] at sourcePosition
  obtain ⟨rfl, rfl⟩ := sourcePosition
  have cut :
      policy.unit.cut? (before ++ occurrence.text.toList ++ after) column
          (policy.unit.measure occurrence.text.toList) =
        some occurrence.text.toList :=
    CodeUnit.cut?_append begins (CodeUnit.toNat_measure fits)
  have nonempty : occurrence.text.toList.isEmpty = false := by
    rw [List.isEmpty_eq_false_iff]
    intro empty
    apply measured
    rw [empty]
    rfl
  rw [textUnder?, Highlight.token, found]
  change (policy.unit.cut? _ column _ >>= _) = _
  rw [cut]
  change (if occurrence.text.toList.isEmpty = true then none else _) = _
  rw [nonempty, if_neg Bool.false_ne_true]

theorem quoted_suffix_line
    (legend : Legend) (number : Nat) (token : Token) (text : List Char) :
    ' ' :: (Text.quoted text).toList <:+
      (line legend number token (some text)).toList := by
  delta line
  rw [String.toList_append, toList_coveredPart_some]
  exact List.suffix_append _ _

/-- Each line of the listing of an encoded list is about one highlight. -/
theorem lines_encode
    (highlights : List Highlight) (source : String) (unit : CodeUnit)
    (legend : Legend) :
    lines (Delta.encode highlights) (some source) unit legend =
      highlights.mapIdx fun index highlight =>
        line legend (index + 1) highlight.token
          (textUnder? (Text.lines source.toList) unit highlight.token) := by
  rw [lines, Delta.decode_encode]
  apply List.ext_getElem?
  intro index
  rw [List.getElem?_mapIdx, List.getElem?_mapIdx, List.getElem?_map,
    Option.map_map]
  rfl

/-- The listing of the highlights of a list of names has one line for each
highlight, and each line ends with the quoted text of the name, whichever it
is, that the highlight comes from. -/
theorem lines_collected_end_with_name
    (records : List NameRecord) (policy : CollectionPolicy) (source : String)
    (stand :
      ∀ record ∈ records,
        (record.occurrence.examine policy).highlight ≠ none →
          record.occurrence.StandsIn source policy.unit) :
    let highlights :=
      (Collection.ofOccurrences
        (records.map NameRecord.occurrence) policy).highlights
    let shown :=
      Text.lines
        (text (Delta.encode highlights) (some source) policy.unit
          Legend.standard).toList
    shown.length = highlights.length ∧
      ∀ (index : Nat) (highlight : Highlight),
        highlights[index]? = some highlight →
        (∃ record ∈ records,
            (record.occurrence.examine policy).highlight = some highlight) ∧
          ∀ record ∈ records,
            (record.occurrence.examine policy).highlight = some highlight →
              ∃ line, shown[index]? = some line ∧
                ' ' :: (Text.quoted record.name.toList).toList <:+ line := by
  intro highlights shown
  have shownLines :
      shown =
        (lines (Delta.encode highlights) (some source) policy.unit
          Legend.standard).map String.toList :=
    lines_toList_text _ _ _
  rw [lines_encode] at shownLines
  refine ⟨?_, ?_⟩
  · rw [shownLines, List.length_map, List.length_mapIdx]
  · intro index highlight atIndex
    refine ⟨?_, ?_⟩
    · obtain ⟨occurrence, member, highlighted⟩ :=
        (Collection.mem_highlights_iff _ policy highlight).mp
          (List.mem_of_getElem? atIndex)
      obtain ⟨record, recordMember, rfl⟩ := List.mem_map.mp member
      exact ⟨record, recordMember, highlighted⟩
    · intro record member highlighted
      have covered :=
        textUnder?_token highlighted
          (stand record member (by rw [highlighted]; exact nofun))
      refine ⟨_, ?_, quoted_suffix_line Legend.standard (index + 1)
        highlight.token record.name.toList⟩
      rw [shownLines, List.getElem?_map, List.getElem?_mapIdx, atIndex,
        Option.map_some, Option.map_some, covered]
      rfl

/-- Names in the wrong order, one of them after a character of two units, and
a skipped name that stands nowhere. -/
theorem lines_collected_end_with_name_after_astral_character :
    (∀ record ∈
        [NameRecord.reference "os" 2 0 "module",
          NameRecord.reference "nowhere" 9 9 "instance",
          NameRecord.reference "name" 1 11 "variable"],
        (record.occurrence.examine ⟨.utf16, true, 4⟩).highlight ≠ none →
          record.occurrence.StandsIn "s = \"𝛼\" + name\nos\n" .utf16) ∧
      ∃ line,
        (Text.lines
          (text
            (Delta.encode
              (Collection.ofOccurrences
                ([NameRecord.reference "os" 2 0 "module",
                  NameRecord.reference "nowhere" 9 9 "instance",
                  NameRecord.reference "name" 1 11 "variable"].map
                    NameRecord.occurrence) ⟨.utf16, true, 4⟩).highlights)
            (some "s = \"𝛼\" + name\nos\n") .utf16
            Legend.standard).toList)[0]? = some line ∧
          ' ' :: (Text.quoted "name".toList).toList <:+ line := by
  have stand :
      ∀ record ∈
        [NameRecord.reference "os" 2 0 "module",
          NameRecord.reference "nowhere" 9 9 "instance",
          NameRecord.reference "name" 1 11 "variable"],
        (record.occurrence.examine ⟨.utf16, true, 4⟩).highlight ≠ none →
          record.occurrence.StandsIn "s = \"𝛼\" + name\nos\n" .utf16 := by
    intro record member highlighted
    simp only [List.mem_cons, List.not_mem_nil, or_false] at member
    rcases member with rfl | rfl | rfl
    · exact ⟨1, 0, [], [], by decide, by decide, by decide, by decide⟩
    · exact (highlighted (by decide)).elim
    · exact
        ⟨0, 11, "s = \"𝛼\" + ".toList, [], by decide, by decide, by decide,
          by decide⟩
  have found :
      (([NameRecord.reference "os" 2 0 "module",
          NameRecord.reference "nowhere" 9 9 "instance",
          NameRecord.reference "name" 1 11 "variable"].map
            NameRecord.occurrence).map
              (Occurrence.examine · ⟨.utf16, true, 4⟩)).filterMap
                Examination.highlight =
        [⟨1, 0, 2, .moduleName, .empty⟩,
          ⟨0, 11, 4, .variableName, .empty⟩] := by
    decide
  refine ⟨stand, ?_⟩
  obtain ⟨_, shown⟩ :=
    lines_collected_end_with_name _ ⟨.utf16, true, 4⟩ _ stand
  refine
    (shown 0 ⟨0, 11, 4, .variableName, .empty⟩ ?_).2
      (NameRecord.reference "name" 1 11 "variable") (by decide) (by decide)
  simp only [Collection.ofOccurrences, found, if_true, Highlight.sort]
  simp [List.mergeSort, List.MergeSort.Internal.splitInTwo,
    Highlight.startsBy]

end Listing

end SemanticTokens
