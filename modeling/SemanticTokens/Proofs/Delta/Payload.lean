import SemanticTokens.Proofs.Delta.RoundTrip
import SemanticTokens.Proofs.Text.Fields

/-!
# Payloads tell streams apart

A payload writes the numbers of a stream in decimal with commas between them.
No number is empty or has a comma in it, so that the numbers can be told from
the text, and from the numbers the groups.
-/

namespace SemanticTokens.Delta

open DeltaGroup Text

theorem toList_payload
    (groups : List DeltaGroup) :
    (payload groups).toList =
      "\x7b\"data\":[".toList ++
        [','].intercalate
          ((groups.flatMap numbers).map fun number =>
            Nat.toDigits 10 number.toNat) ++
        "]\x7d".toList := by
  have decimals :
      (String.toList ∘ fun number : UInt32 => toString number.toNat) =
        fun number => Nat.toDigits 10 number.toNat := by
    funext number
    rw [Function.comp_apply, Nat.toString_eq_repr, Nat.toList_repr]
  rw [payload, String.toList_append, String.toList_append,
    String.toList_intercalate, List.map_map, decimals]
  rfl

theorem joinedDecimals_injective
    {left right : List UInt32}
    (same :
      [','].intercalate
          (left.map fun number => Nat.toDigits 10 number.toNat) =
        [','].intercalate
          (right.map fun number => Nat.toDigits 10 number.toNat)) :
    left = right := by
  have fields (list : List UInt32) :
      ∀ field ∈ list.map fun number => Nat.toDigits 10 number.toNat,
        IsField ',' field := by
    intro field member
    obtain ⟨number, _, rfl⟩ := List.mem_map.mp member
    exact isField_toDigits_ten (by decide) number.toNat
  have sameDecimals :=
    intercalate_delimiter_inj (fields left) (fields right) same
  apply (List.map_inj_right ?_).mp sameDecimals
  intro leftNumber rightNumber sameDigits
  exact UInt32.toNat_inj.mp (toDigits_ten_injective sameDigits)

/-- A payload determines the groups that it carries. -/
theorem payload_injective
    {left right : List DeltaGroup}
    (same : payload left = payload right) :
    left = right := by
  have sameText := congrArg String.toList same
  rw [toList_payload, toList_payload, List.append_cancel_right_eq,
    List.append_cancel_left_eq] at sameText
  have sameGroups :=
    congrArg ofNumbers (joinedDecimals_injective sameText)
  simpa only [ofNumbers_flatMap_numbers] using sameGroups

theorem payload_groups_injective
    {left right : List Highlight}
    (same : payload (groups left) = payload (groups right)) :
    left = right := by
  apply encode_injective
  rw [encode, encode, payload_injective same]

end SemanticTokens.Delta
