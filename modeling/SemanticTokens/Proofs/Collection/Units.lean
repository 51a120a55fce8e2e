import SemanticTokens.NameRecord.Printer
import SemanticTokens.Proofs.CodeUnit.Widths
import SemanticTokens.Proofs.Collection.Skips

/-!
# Collections in different units

The unit of a collection decides how long its highlights are, and nothing else.
A name is skipped for its text only if that has no characters, which all units
agree on, so that the same names are skipped with the same records.  Sorting
does not look at lengths.  Hence the collections of some names in all units are
one list of highlights, with the text of each measured in the unit.

Texts of `2 ^ 32` bytes or more are left out, because their measures may wrap.
-/

namespace SemanticTokens

def Highlight.measured
    (unit : CodeUnit) (text : List Char) (highlight : Highlight) : Highlight :=
  { highlight with length := unit.measure text }

namespace Occurrence

/-- Whether the bytes of the text of a name can be counted without wrapping. -/
def BytesFit (occurrence : Occurrence) : Prop :=
  CodeUnit.size .utf8 occurrence.text.toList < UInt32.size

instance (occurrence : Occurrence) : Decidable occurrence.BytesFit :=
  inferInstanceAs (Decidable (_ < _))

/-- In another unit a name is examined as before, but for the length of its
highlight. -/
theorem examine_with_unit
    {occurrence : Occurrence} (fits : occurrence.BytesFit)
    (policy : CollectionPolicy) (unit : CodeUnit) :
    occurrence.examine { policy with unit := unit } =
      { occurrence.examine policy with
        highlight :=
          (occurrence.examine policy).highlight.map
            (Highlight.measured unit occurrence.text.toList) } := by
  rw [examine, examine]
  cases occurrence.position? with
  | none =>
      rfl
  | some position =>
      cases occurrence.categorize policy.inferenceLimit with
      | mk category calls log =>
          cases category with
          | none =>
              rfl
          | some category =>
              have otherEmpty := CodeUnit.measure_eq_zero_iff fits unit
              have empty := CodeUnit.measure_eq_zero_iff fits policy.unit
              by_cases noText : occurrence.text.toList = []
              · simp only [otherEmpty.mpr noText, empty.mpr noText, if_true,
                  Option.map_none]
              · simp only [otherEmpty.not.mpr noText, empty.not.mpr noText,
                  if_false, Option.map_some, Highlight.measured]

end Occurrence

namespace Collection

open Highlight

/-- The highlights of the names that are not skipped, each with the text of its
name, in the order of the names. -/
def emittedTexts
    (policy : CollectionPolicy) (occurrences : List Occurrence) :
    List (Highlight × List Char) :=
  occurrences.filterMap fun occurrence =>
    (occurrence.examine policy).highlight.map fun highlight =>
      (highlight, occurrence.text.toList)

section Fitting

variable {occurrences : List Occurrence}
  (fit : ∀ occurrence ∈ occurrences, occurrence.BytesFit)
  (policy : CollectionPolicy)
include fit

theorem size_lt_of_mem_emittedTexts
    {source : Highlight × List Char}
    (member : source ∈ emittedTexts policy occurrences) :
    CodeUnit.size .utf8 source.2 < UInt32.size := by
  obtain ⟨occurrence, inList, emits⟩ := List.mem_filterMap.mp member
  obtain ⟨highlight, _, rfl⟩ := Option.map_eq_some_iff.mp emits
  exact fit occurrence inList

theorem emitted_with_unit
    (unit : CodeUnit) :
    emitted { policy with unit := unit } occurrences =
      (emittedTexts policy occurrences).map fun source =>
        source.1.measured unit source.2 := by
  rw [emitted, emittedTexts, List.map_filterMap]
  apply List.filterMap_congr
  intro occurrence member
  rw [Occurrence.examine_with_unit (fit occurrence member), Option.map_map]
  rfl

/-- The highlights of some names in all units, as one list whose texts are
measured. -/
theorem exists_highlights_with_unit_eq :
    ∃ sources : List (Highlight × List Char),
      (∀ source ∈ sources,
        CodeUnit.size .utf8 source.2 < UInt32.size) ∧
      ∀ unit : CodeUnit,
        (ofOccurrences occurrences { policy with unit := unit }).highlights =
          sources.map fun source => source.1.measured unit source.2 := by
  by_cases sorts : policy.sortsByPosition = true
  · refine
      ⟨(emittedTexts policy occurrences).mergeSort fun left right =>
        startsBy left.1 right.1, ?_, ?_⟩
    · intro source member
      exact
        size_lt_of_mem_emittedTexts fit policy (List.mem_mergeSort.mp member)
    · intro unit
      have sortsToo : { policy with unit := unit }.sortsByPosition = true :=
        sorts
      rw [highlights_of_sorts occurrences sortsToo, emitted_with_unit fit,
        sort]
      -- Places are compared, and they are the same in every unit.
      symm
      apply List.map_mergeSort
      intro left _ right _
      rfl
  · refine ⟨emittedTexts policy occurrences, ?_, ?_⟩
    · intro source member
      exact size_lt_of_mem_emittedTexts fit policy member
    · intro unit
      have keepsOrder :
          { policy with unit := unit }.sortsByPosition = false :=
        Bool.eq_false_iff.mpr sorts
      rw [highlights_of_not_sorts occurrences keepsOrder,
        emitted_with_unit fit]

theorem log_with_unit
    (unit : CodeUnit) :
    (ofOccurrences occurrences { policy with unit := unit }).log =
      (ofOccurrences occurrences policy).log := by
  rw [← List.forall₂_eq_eq_eq]
  apply forall₂_log_ofOccurrences
  · exact fun _ => rfl
  · intro occurrence member
    rw [Occurrence.examine_with_unit (fit occurrence member),
      Option.map_eq_none_iff]
  · intro occurrence member
    rw [Occurrence.examine_with_unit (fit occurrence member),
      List.forall₂_eq_eq_eq]

end Fitting

/-- Collections of the same names in two units have the same log and, one by
one, the same highlights but for their lengths.  A length in UTF-32 is at most
that in UTF-16, which is at most that in UTF-8; the length in UTF-16 is at most
twice that in UTF-32, and the length in UTF-8 at most three times that in
UTF-16. -/
theorem units_decide_only_lengths
    (occurrences : List Occurrence) (policy : CollectionPolicy)
    (fit : ∀ occurrence ∈ occurrences, occurrence.BytesFit) :
    let collected (unit : CodeUnit) :=
      ofOccurrences occurrences { policy with unit := unit }
    (∀ left right : CodeUnit,
      (collected left).log = (collected right).log ∧
        List.Forall₂
          (fun leftHighlight rightHighlight =>
            { leftHighlight with length := rightHighlight.length } =
              rightHighlight)
          (collected left).highlights (collected right).highlights) ∧
      ∀ (index : Nat) (utf8 utf16 utf32 : Highlight),
        (collected .utf8).highlights[index]? = some utf8 →
        (collected .utf16).highlights[index]? = some utf16 →
        (collected .utf32).highlights[index]? = some utf32 →
          utf32.length ≤ utf16.length ∧
            utf16.length ≤ utf8.length ∧
            utf16.length.toNat ≤ 2 * utf32.length.toNat ∧
            utf8.length.toNat ≤ 3 * utf16.length.toNat := by
  intro collected
  obtain ⟨sources, sizes, highlights⟩ :=
    exists_highlights_with_unit_eq fit policy
  refine ⟨?_, ?_⟩
  · intro left right
    refine ⟨?_, ?_⟩
    · rw [log_with_unit fit policy left, log_with_unit fit policy right]
    · rw [highlights left, highlights right, List.forall₂_map_left_iff,
        List.forall₂_map_right_iff, List.forall₂_same]
      intro source _
      rfl
  · intro index utf8 utf16 utf32 atUtf8 atUtf16 atUtf32
    rw [highlights, List.getElem?_map] at atUtf8 atUtf16 atUtf32
    cases atIndex : sources[index]? with
    | none =>
        rw [atIndex] at atUtf8
        cases atUtf8
    | some source =>
        rw [atIndex] at atUtf8 atUtf16 atUtf32
        cases atUtf8
        cases atUtf16
        cases atUtf32
        have compare :=
          CodeUnit.countsCompare_measure
            (sizes source (List.mem_of_getElem? atIndex))
        exact
          ⟨UInt32.le_iff_toNat_le.mpr compare.utf32_le_utf16,
            UInt32.le_iff_toNat_le.mpr compare.utf16_le_utf8,
            compare.utf16_le_double, compare.utf8_le_triple⟩

/-- A name with characters of every width, behind one that comes later and one
without text. -/
theorem units_decide_only_lengths_of_mixed_widths :
    let occurrences :=
      [NameRecord.reference "f" 2 0 "function",
        NameRecord.reference "" 3 1 "class",
        NameRecord.reference "naïve€𝛼" 1 4 "variable"].map
          NameRecord.occurrence
    let collected (unit : CodeUnit) :=
      ofOccurrences occurrences { unit := unit }
    let mixed (length : UInt32) : Highlight :=
      ⟨0, 4, length, .variableName, .empty⟩
    (∀ occurrence ∈ occurrences, occurrence.BytesFit) ∧
      (collected .utf8).highlights[0]? = some (mixed 13) ∧
      (collected .utf16).highlights[0]? = some (mixed 8) ∧
      (collected .utf32).highlights[0]? = some (mixed 7) ∧
      (mixed 8).length.toNat ≤ 2 * (mixed 7).length.toNat ∧
      (mixed 13).length.toNat ≤ 3 * (mixed 8).length.toNat ∧
      (collected .utf8).log = (collected .utf16).log := by
  intro occurrences collected mixed
  have fit : ∀ occurrence ∈ occurrences, occurrence.BytesFit := by
    decide
  have first (unit : CodeUnit) (length : UInt32)
      (emits :
        emitted { unit := unit } occurrences =
          [⟨1, 0, 1, .functionName, .empty⟩, mixed length]) :
      (collected unit).highlights[0]? = some (mixed length) := by
    rw [highlights_of_sorts occurrences rfl, emits]
    simp [mixed, sort, List.mergeSort, List.MergeSort.Internal.splitInTwo,
      startsBy]
  have inUtf8 := first .utf8 13 (by decide)
  have inUtf16 := first .utf16 8 (by decide)
  have inUtf32 := first .utf32 7 (by decide)
  obtain ⟨same, compare⟩ := units_decide_only_lengths occurrences {} fit
  obtain ⟨_, _, double, triple⟩ :=
    compare 0 (mixed 13) (mixed 8) (mixed 7) inUtf8 inUtf16 inUtf32
  exact
    ⟨fit, inUtf8, inUtf16, inUtf32, double, triple, (same .utf8 .utf16).1⟩

end Collection

end SemanticTokens
