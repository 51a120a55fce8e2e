import Mathlib.Data.Nat.Bitwise
import Mathlib.Data.Nat.Nth
import SemanticTokens.Proofs.Legend.Names

/-!
# Names of the bits of a mask

A mask is shown by the names of its bits.  A bit is set when the mask shares it
with the word that has no other bit, and the scan from bit 0 to bit 31 meets
the set bits in increasing order: the one at place `k` of the list has `k` set
bits below it.  The names follow the bits one by one, so they determine the
mask exactly if no two bits share a name.
-/

namespace SemanticTokens.Legend

/-! ## Bits of a word -/

def onlyBit (bit : Nat) : UInt32 :=
  1 <<< UInt32.ofNat bit

/-- Whether a bit is one of the 32 of a mask and is set there. -/
def IsSet (mask : UInt32) (bit : Nat) : Prop :=
  bit < 32 ∧ mask &&& onlyBit bit ≠ 0

instance (mask : UInt32) : DecidablePred (IsSet mask) :=
  fun bit => inferInstanceAs (Decidable (bit < 32 ∧ mask &&& onlyBit bit ≠ 0))

theorem toNat_onlyBit
    {bit : Nat} (inWord : bit < 32) :
    (onlyBit bit).toNat = 2 ^ bit := by
  have power : 2 ^ bit < 2 ^ 32 :=
    (Nat.pow_lt_pow_iff_right (by decide)).mpr inWord
  have amount : (UInt32.ofNat bit).toNat % 32 = bit := by
    rw [UInt32.toNat_ofNat_of_lt' (Nat.lt_trans inWord (by decide)),
      Nat.mod_eq_of_lt inWord]
  rw [onlyBit, UInt32.toNat_shiftLeft, amount, UInt32.toNat_one,
    Nat.one_shiftLeft, Nat.mod_eq_of_lt power]

theorem mem_setBits_iff_isSet
    (mask : UInt32) (bit : Nat) :
    bit ∈ setBits mask ↔ IsSet mask bit := by
  rw [setBits, List.mem_filter, List.mem_range, IsSet]
  apply and_congr_right
  intro inWord
  rw [ne_eq, ← UInt32.toNat_inj, UInt32.toNat_and, toNat_onlyBit inWord,
    Nat.and_two_pow]
  cases mask.toNat.testBit bit with
  | false =>
      simp
  | true =>
      simp

theorem pairwise_setBits
    (mask : UInt32) :
    (setBits mask).Pairwise (· < ·) :=
  List.pairwise_lt_range.filter _

theorem setBits_onlyBit
    {bit : Nat} (inWord : bit < 32) :
    setBits (onlyBit bit) = [bit] := by
  apply (pairwise_setBits _).eq_of_mem_iff (List.pairwise_singleton _ bit)
  intro other
  rw [mem_setBits_iff, toNat_onlyBit inWord, Nat.testBit_two_pow,
    decide_eq_true_eq, List.mem_singleton, eq_comm]

/-! ## The scan in order -/

/-- A scan from zero meets the numbers with a property in increasing order. -/
theorem filter_range_eq_map_nth
    (property : Nat → Prop) [DecidablePred property] (width : Nat) :
    (List.range width).filter property =
      (List.range (Nat.count property width)).map (Nat.nth property) := by
  induction width with
  | zero =>
      rfl
  | succ width inductionHypothesis =>
      rw [List.range_succ, List.filter_append, inductionHypothesis,
        Nat.count_succ]
      -- If the next number has the property, it is the one with as many such
      -- numbers below it as the scan has met.
      by_cases holds : property width
      · rw [if_pos holds, List.range_succ, List.map_append,
          List.map_singleton, Nat.nth_count holds,
          List.filter_cons_of_pos (by simpa using holds), List.filter_nil]
      · rw [if_neg holds, Nat.add_zero,
          List.filter_cons_of_neg (by simpa using holds), List.filter_nil,
          List.append_nil]

theorem setBits_eq_map_nth
    (mask : UInt32) :
    setBits mask =
      (List.range (Nat.count (IsSet mask) 32)).map
        (Nat.nth (IsSet mask)) := by
  rw [← filter_range_eq_map_nth, setBits]
  apply List.filter_congr
  intro bit member
  rw [Bool.eq_iff_iff, decide_eq_true_eq, ← mem_setBits_iff_isSet,
    mem_setBits_iff]

/-! ## Names in order -/

theorem length_namesOfMask
    (legend : Legend) (mask : UInt32) :
    (legend.namesOfMask mask).length = Nat.count (IsSet mask) 32 := by
  rw [namesOfMask, List.length_map, setBits_eq_map_nth, List.length_map,
    List.length_range]

theorem getElem?_namesOfMask
    (legend : Legend) {mask : UInt32} {place : Nat}
    (isPlace : place < Nat.count (IsSet mask) 32) :
    (legend.namesOfMask mask)[place]? =
      some (legend.nameOfBit (Nat.nth (IsSet mask) place)) := by
  rw [namesOfMask, setBits_eq_map_nth, List.getElem?_map,
    List.getElem?_map, List.getElem?_range isPlace, Option.map_some,
    Option.map_some]

/-! ## Masks told by their names -/

theorem namesOfMask_onlyBit
    (legend : Legend) {bit : Nat} (inWord : bit < 32) :
    legend.namesOfMask (onlyBit bit) = [legend.nameOfBit bit] := by
  rw [namesOfMask, setBits_onlyBit inWord, List.map_singleton]

/-- The names of a mask determine it exactly if no two of the 32 bits share a
name. -/
theorem namesOfMask_injective_iff
    (legend : Legend) :
    (∀ left right : UInt32,
        legend.namesOfMask left = legend.namesOfMask right →
          left = right) ↔
      ∀ low < 32, ∀ high < 32,
        legend.nameOfBit low = legend.nameOfBit high → low = high := by
  constructor
  · intro determined low lowInWord high highInWord sameName
    have sameMask : onlyBit low = onlyBit high := by
      apply determined
      rw [namesOfMask_onlyBit legend lowInWord,
        namesOfMask_onlyBit legend highInWord, sameName]
    have samePower : 2 ^ low = 2 ^ high := by
      rw [← toNat_onlyBit lowInWord, sameMask, toNat_onlyBit highInWord]
    exact Nat.pow_right_injective (Nat.le_refl 2) samePower
  · intro distinct left right
    exact namesOfMask_injective_of_distinct distinct

/-- A legend whose entry for one bit is the fallback name of another. -/
example :
    namesOfMask ⟨[], ["<bit 1>"]⟩ (onlyBit 0) =
      namesOfMask ⟨[], ["<bit 1>"]⟩ (onlyBit 1) := by
  decide

/-- The names of a mask are those of exactly its set bits, each once and the
lower bits first: at each place stands the entry of the legend for the set bit
with as many set bits below it, or the number of that bit where the legend has
no entry.  If the entries differ from one another and from all such numbers,
then the names determine the mask. -/
theorem namesOfMask_lists_set_bits
    (legend : Legend) :
    (∀ mask : UInt32,
        (∃ bits : List Nat,
            bits.Pairwise (· < ·) ∧
              (∀ bit, bit ∈ bits ↔ IsSet mask bit) ∧
              legend.namesOfMask mask =
                bits.map fun bit =>
                  legend.modifiers[bit]?.getD
                    ("<bit " ++ toString bit ++ ">")) ∧
          (legend.namesOfMask mask).length = Nat.count (IsSet mask) 32 ∧
          ∀ place < Nat.count (IsSet mask) 32,
            (legend.namesOfMask mask)[place]? =
              some
                (legend.modifiers[Nat.nth (IsSet mask) place]?.getD
                  ("<bit " ++ toString (Nat.nth (IsSet mask) place) ++
                    ">"))) ∧
      (legend.modifiers.Nodup →
        (∀ bit < 32, "<bit " ++ toString bit ++ ">" ∉ legend.modifiers) →
          ∀ left right : UInt32,
            legend.namesOfMask left = legend.namesOfMask right →
              left = right) := by
  constructor
  · intro mask
    refine ⟨⟨setBits mask, ?_, ?_, rfl⟩, ?_, ?_⟩
    · exact pairwise_setBits mask
    · exact mem_setBits_iff_isSet mask
    · exact length_namesOfMask legend mask
    · intro place isPlace
      exact getElem?_namesOfMask legend isPlace
  · intro distinct noFallback
    apply (namesOfMask_injective_iff legend).mpr
    intro low lowInWord high highInWord sameName
    exact
      nameOfBit_inj_of_nodup distinct (noFallback low lowInWord)
        (noFallback high highInWord) sameName

/-- Two entries before a mask with bits on both sides of their end. -/
theorem namesOfMask_lists_set_bits_beyond_legend :
    let legend : Legend := ⟨[], ["declaration", "static"]⟩
    legend.modifiers.Nodup ∧
      (∀ bit < 32, "<bit " ++ toString bit ++ ">" ∉ legend.modifiers) ∧
      IsSet 0x80000006 31 ∧ Nat.count (IsSet 0x80000006) 31 = 2 ∧
      (legend.namesOfMask 0x80000006)[2]? = some "<bit 31>" ∧
      ∀ mask : UInt32,
        legend.namesOfMask mask = ["static", "<bit 2>", "<bit 31>"] →
          mask = 0x80000006 := by
  intro legend
  have distinct : legend.modifiers.Nodup := by
    decide
  have noFallback :
      ∀ bit < 32, "<bit " ++ toString bit ++ ">" ∉ legend.modifiers := by
    intro bit _ member
    rcases List.mem_pair.mp member with same | same
    · exact ne_fallbackOfBit (by decide) bit same.symm
    · exact ne_fallbackOfBit (by decide) bit same.symm
  have highest : IsSet 0x80000006 31 := by
    decide
  have below : Nat.count (IsSet 0x80000006) 31 = 2 := by
    decide
  have third : Nat.nth (IsSet 0x80000006) 2 = 31 := by
    rw [← below, Nat.nth_count highest]
  obtain ⟨listed, determined⟩ := namesOfMask_lists_set_bits legend
  obtain ⟨_, _, named⟩ := listed 0x80000006
  refine ⟨distinct, noFallback, highest, below, ?_, ?_⟩
  · rw [named 2 (by decide), third]
    rfl
  · intro mask sameNames
    apply determined distinct noFallback
    rw [sameNames]
    rfl

end SemanticTokens.Legend
