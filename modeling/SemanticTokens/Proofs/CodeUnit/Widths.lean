import SemanticTokens.CodeUnit

/-!
# Counts of one text in all units

A character has one unit in UTF-32, a second one in UTF-16 from U+10000 on, and
in UTF-8 one more from each of U+0080, U+0800 and U+10000 on.  So the three
counts of a character differ by bounded factors, and those of a text, which are
sums, by the same ones.

In particular no count of a text exceeds its number of bytes, and they are zero
together.  Where the bytes of a text can be counted without wrapping, the same
holds of its measures.
-/

namespace SemanticTokens.CodeUnit

/-- How the counts of one text compare. -/
structure CountsCompare (utf8 utf16 utf32 : Nat) : Prop where
  utf32_le_utf16 : utf32 ≤ utf16
  utf16_le_utf8 : utf16 ≤ utf8
  utf16_le_double : utf16 ≤ 2 * utf32
  utf8_le_triple : utf8 ≤ 3 * utf16

/-! ## One character -/

theorem width_utf16_eq
    (character : Char) :
    width .utf16 character =
      1 + if 0x10000 ≤ character.toNat then 1 else 0 := by
  rw [width]
  by_cases basic : character.toNat < 0x10000
  · rw [if_pos basic, if_neg (Nat.not_le_of_lt basic)]
  · rw [if_neg basic, if_pos (Nat.le_of_not_lt basic)]

theorem width_utf8_eq
    (character : Char) :
    width .utf8 character =
      1 + (if 0x80 ≤ character.toNat then 1 else 0) +
        (if 0x800 ≤ character.toNat then 1 else 0) +
        (if 0x10000 ≤ character.toNat then 1 else 0) := by
  have bytes :
      width .utf8 character =
        if character.toNat ≤ 0x7f then 1
        else if character.toNat ≤ 0x7ff then 2
        else if character.toNat ≤ 0xffff then 3
        else 4 := by
    simp only [width, Char.utf8Size, UInt32.le_iff_toNat_le]
    rfl
  rw [bytes]
  generalize character.toNat = codePoint
  grind

theorem countsCompare_width
    (character : Char) :
    CountsCompare (width .utf8 character) (width .utf16 character)
      (width .utf32 character) := by
  have one : width .utf32 character = 1 := rfl
  rw [width_utf8_eq, width_utf16_eq, one]
  generalize character.toNat = codePoint
  constructor <;> grind

/-! ## A text -/

theorem CountsCompare.add
    {utf8 utf16 utf32 moreUtf8 moreUtf16 moreUtf32 : Nat}
    (first : CountsCompare utf8 utf16 utf32)
    (second : CountsCompare moreUtf8 moreUtf16 moreUtf32) :
    CountsCompare (utf8 + moreUtf8) (utf16 + moreUtf16)
      (utf32 + moreUtf32) where
  utf32_le_utf16 := Nat.add_le_add first.utf32_le_utf16 second.utf32_le_utf16
  utf16_le_utf8 := Nat.add_le_add first.utf16_le_utf8 second.utf16_le_utf8
  utf16_le_double := by
    rw [Nat.mul_add]
    exact Nat.add_le_add first.utf16_le_double second.utf16_le_double
  utf8_le_triple := by
    rw [Nat.mul_add]
    exact Nat.add_le_add first.utf8_le_triple second.utf8_le_triple

theorem countsCompare_size
    (text : List Char) :
    CountsCompare (size .utf8 text) (size .utf16 text) (size .utf32 text) := by
  induction text with
  | nil =>
      constructor <;> exact Nat.le_refl 0
  | cons character rest inductionHypothesis =>
      rw [size_cons, size_cons, size_cons]
      exact (countsCompare_width character).add inductionHypothesis

theorem size_le_size_utf8
    (unit : CodeUnit) (text : List Char) :
    unit.size text ≤ size .utf8 text := by
  have compare := countsCompare_size text
  cases unit with
  | utf8 =>
      exact Nat.le_refl _
  | utf16 =>
      exact compare.utf16_le_utf8
  | utf32 =>
      exact Nat.le_trans compare.utf32_le_utf16 compare.utf16_le_utf8

/-! ## Measures -/

section Measures

variable {text : List Char} (fits : size .utf8 text < UInt32.size)
include fits

theorem toNat_measure_of_bytes_fit
    (unit : CodeUnit) :
    (unit.measure text).toNat = unit.size text :=
  toNat_measure (Nat.lt_of_le_of_lt (unit.size_le_size_utf8 text) fits)

theorem countsCompare_measure :
    CountsCompare (measure .utf8 text).toNat (measure .utf16 text).toNat
      (measure .utf32 text).toNat := by
  rw [toNat_measure_of_bytes_fit fits, toNat_measure_of_bytes_fit fits,
    toNat_measure_of_bytes_fit fits]
  exact countsCompare_size text

theorem measure_eq_zero_iff
    (unit : CodeUnit) :
    unit.measure text = 0 ↔ text = [] := by
  rw [← UInt32.toNat_inj, toNat_measure_of_bytes_fit fits, UInt32.toNat_zero,
    size_eq_zero_iff]

end Measures

end SemanticTokens.CodeUnit
