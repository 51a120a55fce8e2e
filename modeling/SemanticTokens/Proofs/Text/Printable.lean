import SemanticTokens.Text

/-!
# Printable text

A text is printable if a listing can show each of its characters as it is.
Digits of any base are printable, and so is every quoted text, whatever it
quotes: a character that is not printable leaves only its code point.  In
particular no line end can come from a quoted text.
-/

namespace SemanticTokens.Text

/-- Whether a listing shows every character of a text as it is. -/
def AllPrintable (text : List Char) : Prop :=
  ∀ character ∈ text, isUnprintable character = false

instance (text : List Char) : Decidable (AllPrintable text) :=
  List.decidableBAll (fun character => isUnprintable character = false) text

theorem allPrintable_nil : AllPrintable [] := by
  intro character member
  cases member

@[simp]
theorem allPrintable_cons_iff
    (character : Char) (text : List Char) :
    AllPrintable (character :: text) ↔
      isUnprintable character = false ∧ AllPrintable text :=
  List.forall_mem_cons

@[simp]
theorem allPrintable_append_iff
    (left right : List Char) :
    AllPrintable (left ++ right) ↔
      AllPrintable left ∧ AllPrintable right :=
  List.forall_mem_append

theorem allPrintable_flatMap
    {pieces : Char → List Char} (text : List Char)
    (printable : ∀ character, AllPrintable (pieces character)) :
    AllPrintable (text.flatMap pieces) := by
  intro shown member
  obtain ⟨character, _, shownMember⟩ := List.mem_flatMap.mp member
  exact printable character shown shownMember

theorem forall_mem_intercalate
    {property : Char → Prop} {separator : List Char}
    (separatorHas : ∀ character ∈ separator, property character)
    {pieces : List (List Char)}
    (piecesHave : ∀ piece ∈ pieces, ∀ character ∈ piece, property character) :
    ∀ character ∈ separator.intercalate pieces, property character := by
  induction pieces with
  | nil =>
      intro character member
      cases member
  | cons piece rest inductionHypothesis =>
      have head := piecesHave piece List.mem_cons_self
      have tail :=
        inductionHypothesis fun other member =>
          piecesHave other (List.mem_cons_of_mem piece member)
      by_cases last : rest = []
      · subst rest
        rwa [List.intercalate_singleton]
      · rw [List.intercalate_cons_of_ne_nil last, List.forall_mem_append,
          List.forall_mem_append]
        exact ⟨⟨head, separatorHas⟩, tail⟩

theorem allPrintable_intercalate
    {separator : List Char} (separatorPrintable : AllPrintable separator)
    {pieces : List (List Char)}
    (piecesPrintable : ∀ piece ∈ pieces, AllPrintable piece) :
    AllPrintable (separator.intercalate pieces) :=
  forall_mem_intercalate separatorPrintable piecesPrintable

/-- A line end is never shown as it is. -/
theorem newline_not_mem
    {text : List Char} (printable : AllPrintable text) :
    '\n' ∉ text := by
  intro member
  have shown := printable '\n' member
  revert shown
  decide

theorem carriageReturn_not_mem
    {text : List Char} (printable : AllPrintable text) :
    '\r' ∉ text := by
  intro member
  have shown := printable '\r' member
  revert shown
  decide

/-! ## Digits -/

theorem isUnprintable_digitChar :
    ∀ digit : Nat, isUnprintable digit.digitChar = false
  | 0 | 1 | 2 | 3 | 4 | 5 | 6 | 7 | 8 | 9
  | 10 | 11 | 12 | 13 | 14 | 15 => by
      decide
  | beyond + 16 => by
      rw [Nat.digitChar_eq_star.mpr (Nat.le_add_left 16 beyond)]
      decide

theorem allPrintable_toDigits
    (base : Nat) (large : 1 < base) (number : Nat) :
    AllPrintable (Nat.toDigits base number) := by
  induction number using Nat.strongRecOn with
  | ind number inductionHypothesis =>
      rw [Nat.toDigits_eq_if large]
      by_cases single : number < base
      · rw [if_pos single, allPrintable_cons_iff]
        exact ⟨isUnprintable_digitChar number, allPrintable_nil⟩
      · have smaller : number / base < number :=
          Nat.div_lt_self (by omega) large
        rw [if_neg single, allPrintable_append_iff, allPrintable_cons_iff]
        exact
          ⟨inductionHypothesis (number / base) smaller,
            isUnprintable_digitChar (number % base), allPrintable_nil⟩

theorem allPrintable_toString
    (number : Nat) :
    AllPrintable (toString number).toList := by
  rw [Nat.toString_eq_repr, Nat.toList_repr]
  exact allPrintable_toDigits 10 (by decide) number

/-! ## Quoted text -/

theorem allPrintable_quotedChar
    (character : Char) :
    AllPrintable (quotedChar character) := by
  unfold quotedChar
  split
  case h_7 =>
      by_cases unprintable : isUnprintable character = true
      · rw [if_pos unprintable]
        have digits :=
          allPrintable_toDigits 16 (by decide) character.toNat
        simp only [codePointEscape, List.cons_append,
          allPrintable_cons_iff, allPrintable_append_iff]
        exact
          ⟨by decide, by decide, by decide, digits, by decide,
            allPrintable_nil⟩
      · rw [if_neg unprintable, allPrintable_cons_iff]
        exact ⟨Bool.eq_false_iff.mpr unprintable, allPrintable_nil⟩
  all_goals decide

/-- Quoting hides every unprintable character. -/
theorem allPrintable_quoted
    (text : List Char) :
    AllPrintable (quoted text).toList := by
  rw [quoted, String.toList_ofList, List.cons_append,
    allPrintable_cons_iff, allPrintable_append_iff]
  exact
    ⟨by decide, allPrintable_flatMap text allPrintable_quotedChar,
      by decide⟩

end SemanticTokens.Text
