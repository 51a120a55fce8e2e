import SemanticTokens.Legend
import SemanticTokens.Proofs.Text.Fields

/-!
# Names of the standard legend

The standard legend names six types and one modifier; every other number gets a
fallback name in angle brackets.  No two numbers share a name, fallback or
not, and a type name can be read off the front of a text when a blank or
nothing follows it, although a fallback name has a blank inside.  Likewise the
names of a mask determine the mask, as they do under any legend that gives no
two bits one name.
-/

namespace SemanticTokens

theorem Category.name_injective
    {left right : Category} (sameName : left.name = right.name) :
    left = right := by
  revert sameName
  cases left <;> cases right <;> decide

namespace Legend

open Text

def isNameChar (character : Char) : Bool :=
  ('a' ≤ character && character ≤ 'z') || character.isDigit ||
    character == ' ' || character == '<' || character == '>'

theorem isUnprintable_of_isNameChar
    {character : Char} (nameChar : isNameChar character = true) :
    isUnprintable character = false := by
  have visible :
      0x20 ≤ character.toNat ∧ character.toNat < 0x7f := by
    simp only [isNameChar, Char.isDigit, Bool.or_eq_true,
      Bool.and_eq_true, decide_eq_true_eq, beq_iff_eq, Char.le_def,
      UInt32.le_iff_toNat_le, ge_iff_le] at nameChar
    rcases nameChar with
      (((letter | digit) | rfl) | rfl) | rfl
    · change 97 ≤ character.toNat ∧ character.toNat ≤ 122 at letter
      omega
    · change 48 ≤ character.toNat ∧ character.toNat ≤ 57 at digit
      omega
    all_goals decide
  rw [isUnprintable, if_pos]
  simpa using visible

private theorem isNameChar_fallback
    {opening : String}
    (plain : opening.toList.all isNameChar = true)
    {number : Nat} {character : Char}
    (member : character ∈ (opening ++ toString number ++ ">").toList) :
    isNameChar character = true := by
  simp only [String.toList_append, Nat.toString_eq_repr, Nat.toList_repr,
    List.mem_append] at member
  rcases member with (first | digit) | last
  · exact List.all_eq_true.mp plain character first
  · simp [isNameChar, isDigit_of_mem_toDigits_ten digit]
  · rw [List.eq_of_mem_singleton last]
    rfl

/-! ## Types -/

/-- A type number has the name of a category or its own fallback name. -/
theorem nameOfType_standard
    (type : UInt32) :
    (∃ category : Category,
        category.index = type ∧
          standard.nameOfType type = category.name) ∨
      standard.nameOfType type = "<type " ++ toString type.toNat ++ ">" := by
  by_cases known : type < 6
  · obtain ⟨category, rfl⟩ := Category.exists_index_eq known
    refine Or.inl ⟨category, rfl, ?_⟩
    cases category <;> rfl
  · right
    have beyond : standard.types.length ≤ type.toNat := by
      rw [UInt32.lt_iff_toNat_lt, Nat.not_lt] at known
      exact known
    rw [nameOfType, List.getElem?_eq_none beyond, Option.getD_none]

theorem isNameChar_nameOfType
    {type : UInt32} {character : Char}
    (member : character ∈ (standard.nameOfType type).toList) :
    isNameChar character = true := by
  rcases nameOfType_standard type with ⟨category, _, named⟩ | fallback
  · rw [named] at member
    have plain : category.name.toList.all isNameChar = true := by
      cases category <;> decide
    exact List.all_eq_true.mp plain character member
  · rw [fallback] at member
    exact isNameChar_fallback (by decide) member

private theorem toList_fallback_append
    (opening : String) (number : Nat) (rest : List Char) :
    (opening ++ toString number ++ ">").toList ++ rest =
      opening.toList ++ (Nat.toDigits 10 number ++ '>' :: rest) := by
  simp only [String.toList_append, Nat.toString_eq_repr, Nat.toList_repr,
    List.append_assoc]
  rfl

/-- Fallback names with the same opening differ in their number alone. -/
private theorem fallback_append_inj
    {opening : String} {left right : Nat} {leftRest rightRest : List Char}
    (same :
      (opening ++ toString left ++ ">").toList ++ leftRest =
        (opening ++ toString right ++ ">").toList ++ rightRest) :
    left = right ∧ leftRest = rightRest := by
  rw [toList_fallback_append, toList_fallback_append] at same
  obtain ⟨sameNumber, sameRest⟩ :=
    toDigits_append_inj (stops_cons _ (by decide) leftRest)
      (stops_cons _ (by decide) rightRest) (List.append_cancel_left same)
  exact ⟨sameNumber, (List.cons.inj sameRest).2⟩

private theorem category_append_ne_fallback_append
    (category : Category) (number : Nat) (leftRest rightRest : List Char) :
    category.name.toList ++ leftRest ≠
      ("<type " ++ toString number ++ ">").toList ++ rightRest := by
  have begins :
      ∃ first rest, category.name.toList = first :: rest ∧ first ≠ '<' := by
    cases category <;> exact ⟨_, _, rfl, by decide⟩
  obtain ⟨first, rest, shape, notBracket⟩ := begins
  intro same
  rw [shape, toList_fallback_append] at same
  exact notBracket (List.cons.inj same).1

/-- A type name that ends its text or stands before a blank can be told from
what follows it. -/
theorem nameOfType_append_inj
    {left right : UInt32} {leftRest rightRest : List Char}
    (leftStops : Stops (· != ' ') leftRest)
    (rightStops : Stops (· != ' ') rightRest)
    (same :
      (standard.nameOfType left).toList ++ leftRest =
        (standard.nameOfType right).toList ++ rightRest) :
    left = right ∧ leftRest = rightRest := by
  rcases nameOfType_standard left with
    ⟨leftCategory, rfl, leftNamed⟩ | leftFallback
  · rcases nameOfType_standard right with
      ⟨rightCategory, rfl, rightNamed⟩ | rightFallback
    · rw [leftNamed, rightNamed] at same
      have noBlank (category : Category) :
          category.name.toList.all (· != ' ') = true := by
        cases category <;> decide
      obtain ⟨sameName, sameRest⟩ :=
        append_inj_of_stops (· != ' ')
          (List.all_eq_true.mp (noBlank leftCategory))
          (List.all_eq_true.mp (noBlank rightCategory))
          leftStops rightStops same
      rw [Category.name_injective (String.toList_inj.mp sameName)]
      exact ⟨rfl, sameRest⟩
    · rw [leftNamed, rightFallback] at same
      exact
        (category_append_ne_fallback_append
          leftCategory right.toNat leftRest rightRest same).elim
  · rcases nameOfType_standard right with
      ⟨rightCategory, rfl, rightNamed⟩ | rightFallback
    · rw [leftFallback, rightNamed] at same
      exact
        (category_append_ne_fallback_append
          rightCategory left.toNat rightRest leftRest same.symm).elim
    · rw [leftFallback, rightFallback] at same
      obtain ⟨sameNumber, sameRest⟩ := fallback_append_inj same
      exact ⟨UInt32.toNat_inj.mp sameNumber, sameRest⟩

/-! ## Modifiers -/

/-- The lowest bit has the name of the modifier, every other bit its own
fallback name. -/
theorem nameOfBit_standard
    (bit : Nat) :
    (bit = 0 ∧ standard.nameOfBit bit = "declaration") ∨
      standard.nameOfBit bit = "<bit " ++ toString bit ++ ">" := by
  cases bit with
  | zero =>
      exact Or.inl ⟨rfl, rfl⟩
  | succ lower =>
      right
      have beyond : standard.modifiers.length ≤ lower + 1 :=
        Nat.le_add_left 1 lower
      rw [nameOfBit, List.getElem?_eq_none beyond, Option.getD_none]

theorem isNameChar_nameOfBit
    {bit : Nat} {character : Char}
    (member : character ∈ (standard.nameOfBit bit).toList) :
    isNameChar character = true := by
  rcases nameOfBit_standard bit with ⟨_, named⟩ | fallback
  · rw [named] at member
    have plain : "declaration".toList.all isNameChar = true := by decide
    exact List.all_eq_true.mp plain character member
  · rw [fallback] at member
    exact isNameChar_fallback (by decide) member

/-- A name that does not begin with a bracket is no fallback name. -/
theorem ne_fallbackOfBit
    {name : String} (noBracket : name.toList.head? ≠ some '<') (bit : Nat) :
    name ≠ "<bit " ++ toString bit ++ ">" := by
  rintro rfl
  rw [String.toList_append, String.toList_append, List.append_assoc]
    at noBracket
  exact noBracket rfl

/-- If the entries of a legend differ from one another and from the fallback
names of two bits, then these bits share no name. -/
theorem nameOfBit_inj_of_nodup
    {legend : Legend} (distinct : legend.modifiers.Nodup)
    {left right : Nat}
    (notLeft : "<bit " ++ toString left ++ ">" ∉ legend.modifiers)
    (notRight : "<bit " ++ toString right ++ ">" ∉ legend.modifiers)
    (sameName : legend.nameOfBit left = legend.nameOfBit right) :
    left = right := by
  rw [nameOfBit, nameOfBit] at sameName
  cases leftEntry : legend.modifiers[left]? with
  | none =>
      cases rightEntry : legend.modifiers[right]? with
      | none =>
          rw [leftEntry, rightEntry, Option.getD_none, Option.getD_none]
            at sameName
          have sameText := congrArg (fun text => text.toList ++ []) sameName
          exact (fallback_append_inj sameText).1
      | some name =>
          rw [leftEntry, rightEntry, Option.getD_none, Option.getD_some]
            at sameName
          rw [← sameName] at rightEntry
          exact (notLeft (List.mem_of_getElem? rightEntry)).elim
  | some name =>
      cases rightEntry : legend.modifiers[right]? with
      | none =>
          rw [leftEntry, rightEntry, Option.getD_some, Option.getD_none]
            at sameName
          rw [sameName] at leftEntry
          exact (notRight (List.mem_of_getElem? leftEntry)).elim
      | some otherName =>
          rw [leftEntry, rightEntry, Option.getD_some, Option.getD_some]
            at sameName
          rw [← sameName] at rightEntry
          obtain ⟨inTable, _⟩ := List.getElem?_eq_some_iff.mp leftEntry
          exact
            (List.getElem?_inj inTable distinct).mp
              (leftEntry.trans rightEntry.symm)

theorem nameOfBit_injective
    {left right : Nat}
    (sameName : standard.nameOfBit left = standard.nameOfBit right) :
    left = right := by
  have noFallback (bit : Nat) :
      "<bit " ++ toString bit ++ ">" ∉ standard.modifiers := by
    intro member
    exact
      ne_fallbackOfBit (by decide) bit (List.eq_of_mem_singleton member).symm
  exact
    nameOfBit_inj_of_nodup (by decide) (noFallback left) (noFallback right)
      sameName

/-! ## Masks -/

theorem isNameChar_of_mem_namesOfMask
    {mask : UInt32} {name : List Char}
    (nameMember : name ∈ (standard.namesOfMask mask).map String.toList)
    {character : Char} (member : character ∈ name) :
    isNameChar character = true := by
  obtain ⟨_, maskMember, rfl⟩ := List.mem_map.mp nameMember
  obtain ⟨bit, _, rfl⟩ := List.mem_map.mp maskMember
  exact isNameChar_nameOfBit member

theorem mem_setBits_iff
    (mask : UInt32) (bit : Nat) :
    bit ∈ setBits mask ↔ mask.toNat.testBit bit = true := by
  rw [setBits, List.mem_filter, List.mem_range]
  constructor
  · exact And.right
  · intro isSet
    have power : 2 ^ bit < 2 ^ 32 :=
      Nat.lt_of_le_of_lt (Nat.ge_two_pow_of_testBit isSet) mask.toNat_lt
    exact ⟨(Nat.pow_lt_pow_iff_right (by decide)).mp power, isSet⟩

theorem lt_of_mem_setBits
    {mask : UInt32} {bit : Nat} (member : bit ∈ setBits mask) :
    bit < 32 :=
  List.mem_range.mp (List.mem_filter.mp member).1

theorem eq_of_mem_setBits_iff
    {left right : UInt32}
    (sameBits : ∀ bit, bit ∈ setBits left ↔ bit ∈ setBits right) :
    left = right := by
  apply UInt32.toNat_inj.mp
  apply Nat.eq_of_testBit_eq
  intro bit
  rw [Bool.eq_iff_iff, ← mem_setBits_iff, ← mem_setBits_iff, sameBits]

/-- If no two bits of a word share a name, then the names of the bits of a
mask determine the mask. -/
theorem namesOfMask_injective_of_distinct
    {legend : Legend}
    (distinct :
      ∀ low < 32, ∀ high < 32,
        legend.nameOfBit low = legend.nameOfBit high → low = high)
    {left right : UInt32}
    (sameNames : legend.namesOfMask left = legend.namesOfMask right) :
    left = right := by
  -- It is enough which names are listed: a set bit of one mask is found in the
  -- other one by its name.
  have carried {mask other : UInt32}
      (same : legend.namesOfMask mask = legend.namesOfMask other) {bit : Nat}
      (member : bit ∈ setBits mask) :
      bit ∈ setBits other := by
    have named : legend.nameOfBit bit ∈ legend.namesOfMask other := by
      rw [← same]
      exact List.mem_map_of_mem member
    obtain ⟨otherBit, otherMember, sameName⟩ := List.mem_map.mp named
    have sameBit :=
      distinct otherBit (lt_of_mem_setBits otherMember)
        bit (lt_of_mem_setBits member) sameName
    rwa [← sameBit]
  apply eq_of_mem_setBits_iff
  intro bit
  exact ⟨carried sameNames, carried sameNames.symm⟩

/-- The names of the bits of a mask determine the mask. -/
theorem namesOfMask_injective
    {left right : UInt32}
    (sameNames : standard.namesOfMask left = standard.namesOfMask right) :
    left = right :=
  namesOfMask_injective_of_distinct
    (fun _ _ _ _ => nameOfBit_injective) sameNames

end Legend

end SemanticTokens
