import SemanticTokens.Proofs.CodeUnit.Encoding
import SemanticTokens.Proofs.CodeUnit.Widths

/-!
# Measures in closed form

A measure is the number of units of a text, cut to a word.  It adds up over
the parts of a text, and it can be told from the characters alone: each of
them has one unit, and one more for each code point of its encoding that it
reaches, which is U+10000 in UTF-16 and U+0080, U+0800 and U+10000 in UTF-8.

All of this is a statement about sizes, which are natural numbers.  A measure
is taken modulo `2 ^ 32` once, at the end.
-/

namespace SemanticTokens.CodeUnit

/-- Number of characters of a text from a code point on. -/
def countFrom (bound : Nat) (text : List Char) : Nat :=
  text.countP fun character => bound ≤ character.toNat

theorem countFrom_cons
    (bound : Nat) (character : Char) (text : List Char) :
    countFrom bound (character :: text) =
      countFrom bound text + if bound ≤ character.toNat then 1 else 0 := by
  simp only [countFrom, List.countP_cons, decide_eq_true_eq]

/-! ## Sizes -/

theorem size_utf16_eq
    (text : List Char) :
    size .utf16 text = text.length + countFrom 0x10000 text := by
  induction text with
  | nil =>
      rfl
  | cons character rest inductionHypothesis =>
      rw [size_cons, width_utf16_eq, inductionHypothesis, List.length_cons,
        countFrom_cons]
      omega

theorem size_utf8_eq
    (text : List Char) :
    size .utf8 text =
      text.length + countFrom 0x80 text + countFrom 0x800 text +
        countFrom 0x10000 text := by
  induction text with
  | nil =>
      rfl
  | cons character rest inductionHypothesis =>
      rw [size_cons, width_utf8_eq, inductionHypothesis, List.length_cons,
        countFrom_cons, countFrom_cons, countFrom_cons]
      omega

/-! ## Measures -/

theorem toNat_measure_eq_mod
    (unit : CodeUnit) (text : List Char) :
    (unit.measure text).toNat = unit.size text % UInt32.size :=
  UInt32.toNat_ofNat'

theorem measure_append
    (unit : CodeUnit) (left right : List Char) :
    unit.measure (left ++ right) = unit.measure left + unit.measure right := by
  rw [measure, size_append, UInt32.ofNat_add, measure, measure]

/-- The measure of a text is the sum of those of its parts, and it is the number of
its units.  In UTF-32 it counts the characters; in UTF-16 those from U+10000 on count
twice, and in UTF-8 those from U+0080, from U+0800 and from U+10000 on count once more
each.  Everything is taken modulo `2 ^ 32`. -/
theorem measures_add_up_and_count_characters :
    (∀ (unit : CodeUnit) (left right : List Char),
        (unit.measure (left ++ right)).toNat =
          ((unit.measure left).toNat + (unit.measure right).toNat) %
            UInt32.size) ∧
      ∀ text : List Char,
        (∀ unit : CodeUnit,
            (unit.measure text).toNat =
              (unit.encode text).length % UInt32.size) ∧
          (measure .utf32 text).toNat = text.length % UInt32.size ∧
          (measure .utf16 text).toNat =
            (text.length + countFrom 0x10000 text) % UInt32.size ∧
          (measure .utf8 text).toNat =
            (text.length + countFrom 0x80 text + countFrom 0x800 text +
                countFrom 0x10000 text) %
              UInt32.size := by
  constructor
  · intro unit left right
    rw [measure_append]
    exact UInt32.toNat_add _ _
  · intro text
    refine ⟨?_, ?_, ?_, ?_⟩
    · intro unit
      rw [toNat_measure_eq_mod, length_encode]
    · rw [toNat_measure_eq_mod, size_utf32]
    · rw [toNat_measure_eq_mod, size_utf16_eq]
    · rw [toNat_measure_eq_mod, size_utf8_eq]

/-- The characters just below and at each of the three code points. -/
example :
    let text := ['\x7f', '\u0080', '\u07ff', '\u0800', '\uffff', '𐀀']
    measure .utf32 text = 6 ∧ measure .utf16 text = 7 ∧
      measure .utf8 text = 15 := by
  decide

end SemanticTokens.CodeUnit
