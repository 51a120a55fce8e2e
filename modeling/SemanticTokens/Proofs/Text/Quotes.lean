import SemanticTokens.Proofs.Text.Fields

/-!
# Quotes tell texts apart

Each character of a quoted text is written in one of three forms: a backslash
with a letter of its own, a code point in braces, or the character itself, which
then is no backslash.  Where one form ends the next one begins, so that a text
can be read off its quotation.
-/

namespace SemanticTokens.Text

/-! ## Hexadecimal numbers -/

theorem exists_digit_of_mem_toDigits
    {base : Nat} (large : 1 < base) {number : Nat} {character : Char}
    (member : character ∈ Nat.toDigits base number) :
    ∃ digit < base, character = digit.digitChar := by
  induction number using Nat.strongRecOn with
  | ind number inductionHypothesis =>
      rw [Nat.toDigits_eq_if large] at member
      by_cases single : number < base
      · rw [if_pos single] at member
        exact ⟨number, single, List.mem_singleton.mp member⟩
      · rw [if_neg single] at member
        rcases List.mem_append.mp member with before | last
        · exact
            inductionHypothesis (number / base)
              (Nat.div_lt_self (by omega) large) before
        · exact
            ⟨number % base, Nat.mod_lt number (by omega),
              List.mem_singleton.mp last⟩

theorem digitChar_sixteen_injective
    {left right : Nat} (leftSmall : left < 16) (rightSmall : right < 16)
    (same : left.digitChar = right.digitChar) :
    left = right := by
  have table :
      ∀ left < 16, ∀ right < 16,
        left.digitChar = right.digitChar → left = right := by
    decide
  exact table left leftSmall right rightSmall same

theorem singleton_ne_toDigits_append
    (character last : Char) (number : Nat) :
    [character] ≠ Nat.toDigits 16 number ++ [last] := by
  intro same
  have sameLength := congrArg List.length same
  rw [List.length_append, List.length_singleton, List.length_singleton,
    Nat.right_eq_add, List.length_eq_zero_iff] at sameLength
  exact Nat.toDigits_ne_nil sameLength

theorem toDigits_sixteen_injective
    {left right : Nat}
    (same : Nat.toDigits 16 left = Nat.toDigits 16 right) :
    left = right := by
  induction left using Nat.strongRecOn generalizing right with
  | ind left inductionHypothesis =>
      have step (number : Nat) :
          Nat.toDigits 16 number =
            if number < 16 then [number.digitChar]
            else Nat.toDigits 16 (number / 16) ++ [(number % 16).digitChar] :=
        Nat.toDigits_eq_if (by decide)
      rw [step left, step right] at same
      by_cases leftSingle : left < 16
      · by_cases rightSingle : right < 16
        · rw [if_pos leftSingle, if_pos rightSingle] at same
          exact
            digitChar_sixteen_injective leftSingle rightSingle
              (List.cons.inj same).1
        · rw [if_pos leftSingle, if_neg rightSingle] at same
          exact (singleton_ne_toDigits_append _ _ _ same).elim
      · by_cases rightSingle : right < 16
        · rw [if_neg leftSingle, if_pos rightSingle] at same
          exact (singleton_ne_toDigits_append _ _ _ same.symm).elim
        · rw [if_neg leftSingle, if_neg rightSingle] at same
          obtain ⟨sameHigh, sameLow⟩ := List.append_inj' same rfl
          have high : left / 16 = right / 16 :=
            inductionHypothesis (left / 16) (by omega) sameHigh
          have low : left % 16 = right % 16 :=
            digitChar_sixteen_injective (by omega) (by omega)
              (List.cons.inj sameLow).1
          omega

/-! ## One character -/

def namedEscapes : List (Char × Char) :=
  [('\x00', '0'), ('\t', 't'), ('\r', 'r'), ('\n', 'n'), ('"', '"'),
    ('\\', '\\')]

inductive QuotedForm (character : Char) : List Char → Prop
  | named {letter : Char} (listed : (character, letter) ∈ namedEscapes) :
      QuotedForm character ['\\', letter]
  | codePoint : QuotedForm character (codePointEscape character)
  | plain (noBackslash : character ≠ '\\') : QuotedForm character [character]

theorem quotedForm_quotedChar
    (character : Char) :
    QuotedForm character (quotedChar character) := by
  unfold quotedChar
  split
  case h_7 notBackslash =>
      by_cases unprintable : isUnprintable character = true
      · rw [if_pos unprintable]
        exact .codePoint
      · rw [if_neg unprintable]
        exact .plain notBackslash
  all_goals exact .named (by decide)

theorem letter_ne_u
    {character letter : Char}
    (listed : (character, letter) ∈ namedEscapes) :
    letter ≠ 'u' := by
  have none : ∀ entry ∈ namedEscapes, entry.2 ≠ 'u' := by
    decide
  exact none _ listed

theorem eq_of_namedEscapes
    {left right letter : Char}
    (leftListed : (left, letter) ∈ namedEscapes)
    (rightListed : (right, letter) ∈ namedEscapes) :
    left = right := by
  have distinct :
      ∀ leftEntry ∈ namedEscapes, ∀ rightEntry ∈ namedEscapes,
        leftEntry.2 = rightEntry.2 → leftEntry.1 = rightEntry.1 := by
    decide
  exact distinct _ leftListed _ rightListed rfl

theorem codePointEscape_append_inj
    {left right : Char} {leftRest rightRest : List Char}
    (same :
      codePointEscape left ++ leftRest = codePointEscape right ++ rightRest) :
    left = right ∧ leftRest = rightRest := by
  have noBrace (number : Nat) : '\x7d' ∉ Nat.toDigits 16 number := by
    intro member
    obtain ⟨digit, small, isBrace⟩ :=
      exists_digit_of_mem_toDigits (by decide) member
    revert isBrace
    have table : ∀ digit < 16, '\x7d' ≠ Nat.digitChar digit := by
      decide
    exact table digit small
  simp only [codePointEscape, List.cons_append, List.append_assoc,
    List.cons.injEq, true_and, List.nil_append] at same
  obtain ⟨sameDigits, sameRest⟩ :=
    append_delimiter_inj (noBrace left.toNat) (noBrace right.toNat) same
  exact
    ⟨Char.toNat_inj.mp (toDigits_sixteen_injective sameDigits), sameRest⟩

/-- No form of a character is the beginning of a form of another one. -/
theorem QuotedForm.append_inj
    {left right : Char} {leftForm rightForm leftRest rightRest : List Char}
    (isLeft : QuotedForm left leftForm)
    (isRight : QuotedForm right rightForm)
    (same : leftForm ++ leftRest = rightForm ++ rightRest) :
    left = right ∧ leftRest = rightRest := by
  cases isLeft with
  | named leftListed =>
      cases isRight with
      | named rightListed =>
          obtain ⟨sameLetter, sameRest⟩ :=
            List.cons.inj (List.cons.inj same).2
          subst sameLetter
          exact ⟨eq_of_namedEscapes leftListed rightListed, sameRest⟩
      | codePoint =>
          have isU := (List.cons.inj (List.cons.inj same).2).1
          exact (letter_ne_u leftListed isU).elim
      | plain noBackslash =>
          exact (noBackslash (List.cons.inj same).1.symm).elim
  | codePoint =>
      cases isRight with
      | named rightListed =>
          have isU := (List.cons.inj (List.cons.inj same).2).1
          exact (letter_ne_u rightListed isU.symm).elim
      | codePoint =>
          exact codePointEscape_append_inj same
      | plain noBackslash =>
          exact (noBackslash (List.cons.inj same).1.symm).elim
  | plain noBackslash =>
      cases isRight with
      | named =>
          exact (noBackslash (List.cons.inj same).1).elim
      | codePoint =>
          exact (noBackslash (List.cons.inj same).1).elim
      | plain =>
          exact List.cons.inj same

theorem QuotedForm.ne_nil
    {character : Char} {form : List Char}
    (isForm : QuotedForm character form) :
    form ≠ [] := by
  cases isForm with
  | named | codePoint | plain =>
      exact List.cons_ne_nil _ _

/-! ## Whole texts -/

theorem flatMap_quotedChar_injective
    {left right : List Char}
    (same : left.flatMap quotedChar = right.flatMap quotedChar) :
    left = right := by
  induction left generalizing right with
  | nil =>
      cases right with
      | nil =>
          rfl
      | cons character rest =>
          have noForm := (List.append_eq_nil_iff.mp same.symm).1
          exact ((quotedForm_quotedChar character).ne_nil noForm).elim
  | cons character rest inductionHypothesis =>
      cases right with
      | nil =>
          have noForm := (List.append_eq_nil_iff.mp same).1
          exact ((quotedForm_quotedChar character).ne_nil noForm).elim
      | cons other others =>
          rw [List.flatMap_cons, List.flatMap_cons] at same
          obtain ⟨rfl, sameRest⟩ :=
            (quotedForm_quotedChar character).append_inj
              (quotedForm_quotedChar other) same
          rw [inductionHypothesis sameRest]

theorem quoted_injective
    {left right : List Char} (same : quoted left = quoted right) :
    left = right := by
  have sameText := congrArg String.toList same
  rw [quoted, quoted, String.toList_ofList, String.toList_ofList] at sameText
  have sameInside := (List.cons.inj sameText).2
  exact flatMap_quotedChar_injective (List.append_cancel_right sameInside)

end SemanticTokens.Text
