import SemanticTokens.Proofs.Json.Decimals
import SemanticTokens.Proofs.Json.Literals

/-!
# Written forms of values

A text is a form of a value if a reader takes that value off the text and leaves
whatever stands behind it.  Only a number needs something behind it that it
cannot go on with.  A form begins with a token that cannot be mistaken for the
end of a list, so that forms with commas between them and brackets around them
make up a form of the list of their values.
-/

namespace SemanticTokens.Json

open Text

/-- Whether a token begins at the front of a text that does not close a list. -/
def BeginsValue (text : List Char) : Prop :=
  ∃ first rest, text = first :: rest ∧ isSpace first = false ∧ first ≠ ']'

/-- Whether a reader takes a value off a text, whatever follows it. -/
structure Reader.IsForm
    {α : Type} (reader : Reader α) (form : List Char) (value : α) : Prop where
  begins : BeginsValue form
  reads : ∀ {rest : List Char}, Stops continuesNumber rest →
    reader.read (form ++ rest) = .ok (value, rest)

theorem BeginsValue.append
    {text : List Char} (begins : BeginsValue text) (rest : List Char) :
    BeginsValue (text ++ rest) := by
  obtain ⟨first, others, rfl, noSpace, noBracket⟩ := begins
  exact ⟨first, others ++ rest, rfl, noSpace, noBracket⟩

theorem isSpace_iff
    {character : Char} :
    isSpace character = true ↔ character ∈ [' ', '\n', '\t', '\r'] := by
  simp only [isSpace, Bool.or_eq_true, beq_iff_eq, List.mem_cons,
    List.not_mem_nil, or_false, or_assoc]

@[simp]
theorem skipSpaces_nil : skipSpaces [] = [] :=
  rfl

theorem skipSpaces_cons_of_not_space
    {character : Char} (noSpace : isSpace character = false)
    (rest : List Char) :
    skipSpaces (character :: rest) = character :: rest := by
  rw [skipSpaces, List.dropWhile_cons, noSpace, if_neg Bool.false_ne_true]

theorem BeginsValue.skipSpaces_eq
    {text : List Char} (begins : BeginsValue text) :
    skipSpaces text = text := by
  obtain ⟨first, rest, rfl, noSpace, _⟩ := begins
  exact skipSpaces_cons_of_not_space noSpace rest

theorem Reader.IsForm.map
    {α β : Type} {reader : Reader α} {form : List Char} {value : α}
    (isForm : reader.IsForm form value) (change : α → β) :
    (reader.map change).IsForm form (change value) where
  begins := isForm.begins
  reads stops := by
    rw [Reader.map]
    dsimp only
    rw [isForm.reads stops]
    rfl

/-! ## Scalars -/

theorem isSpace_of_isDigit
    {character : Char} (digit : character.isDigit = true) :
    isSpace character = false := by
  apply Bool.eq_false_iff.mpr
  intro space
  simp only [isSpace, Bool.or_eq_true, beq_iff_eq] at space
  revert digit
  rcases space with ((rfl | rfl) | rfl) | rfl <;> decide

theorem ne_of_isDigit
    {character other : Char} (digit : character.isDigit = true)
    (noDigit : other.isDigit = false) :
    character ≠ other := by
  rintro rfl
  rw [noDigit] at digit
  cases digit

theorem beginsValue_of_isDigit
    {character : Char} (digit : character.isDigit = true)
    (rest : List Char) :
    BeginsValue (character :: rest) :=
  ⟨character, rest, rfl, isSpace_of_isDigit digit,
    ne_of_isDigit digit (by decide)⟩

theorem readOptionalWord_of_begins
    {character : Char}
    (begins : character = '-' ∨ character.isDigit = true)
    (rest : List Char) :
    readOptionalWord (character :: rest) = do
      let (number, rest) ← readNumber (character :: rest)
      let (word, rest) ← wordOfNumber rest number
      return (some word, rest) := by
  have noSpace : isSpace character = false := by
    rcases begins with rfl | digit
    · decide
    · exact isSpace_of_isDigit digit
  -- The branch for a null is ruled out by this.
  have noNull : character ≠ 'n' := by
    rcases begins with rfl | digit
    · decide
    · exact ne_of_isDigit digit (by decide)
  rw [readOptionalWord, skipSpaces_cons_of_not_space noSpace]
  simp only [Bool.or_eq_true, decide_eq_true_eq, begins, ↓reduceIte]

namespace Reader

theorem isForm_null : optionalWord.IsForm "null".toList none where
  begins := ⟨'n', _, rfl, by decide, by decide⟩
  reads _ := rfl

/-- A word in decimal. -/
theorem isForm_toDigits
    (word : UInt32) :
    optionalWord.IsForm (Nat.toDigits 10 word.toNat) (some word) := by
  obtain ⟨first, others, digits⟩ :=
    List.exists_cons_of_ne_nil
      (Nat.toDigits_ne_nil (n := word.toNat) (b := 10))
  have digit : first.isDigit = true := by
    have member : first ∈ Nat.toDigits 10 word.toNat := by
      rw [digits]
      exact List.mem_cons_self
    exact isDigit_of_mem_toDigits_ten member
  constructor
  · rw [digits]
    exact beginsValue_of_isDigit digit others
  · intro rest stops
    have number :=
      readNumber_toDigits_append (toNat_le_greatestSignificand word) stops
    change readOptionalWord _ = _
    rw [digits, List.cons_append] at number ⊢
    rw [readOptionalWord_of_begins (.inr digit), number]
    simp [bind, Except.bind, wordOfNumber_toNat, pure, Except.pure]

theorem isForm_boolean
    (value : Bool) :
    boolean.IsForm (if value then "true" else "false").toList value := by
  cases value with
  | true =>
      exact ⟨⟨'t', _, rfl, by decide, by decide⟩, fun _ => rfl⟩
  | false =>
      exact ⟨⟨'f', _, rfl, by decide, by decide⟩, fun _ => rfl⟩

theorem read_text_quote
    {start rest characters : List Char}
    (read : readString [] start = .ok (characters, rest)) :
    text.read ('"' :: start) = .ok (String.ofList characters, rest) := by
  have opened :
      text.read ('"' :: start) =
        (readString [] start).map fun taken =>
          (String.ofList taken.1, taken.2) :=
    rfl
  rw [opened, read]
  rfl

/-- The literal of a text. -/
theorem isForm_literal
    (value : String) :
    text.IsForm (literal value).toList value := by
  rw [literal, String.toList_ofList]
  constructor
  · exact ⟨'"', _, rfl, by decide, by decide⟩
  · intro rest _
    have characters :=
      readString_flatMap_literalChar_append value.toList [] rest
    rw [List.reverse_nil, List.nil_append] at characters
    rw [List.append_assoc, List.singleton_append, List.cons_append,
      read_text_quote characters, String.ofList_toList]

end Reader

/-! ## Lists -/

theorem nextElement_close
    (first : Bool) (rest : List Char) :
    nextElement first (']' :: rest) = .ok (.closed rest) :=
  rfl

theorem nextElement_first
    {text : List Char} (begins : BeginsValue text) :
    nextElement true text = .ok (.element text) := by
  have noSpaces := begins.skipSpaces_eq
  obtain ⟨first, rest, rfl, _, noBracket⟩ := begins
  rw [nextElement, noSpaces]
  simp only [↓reduceIte]

theorem nextElement_comma
    {text : List Char} (begins : BeginsValue text) :
    nextElement false (',' :: text) = .ok (.element text) := by
  have noSpaces := begins.skipSpaces_eq
  obtain ⟨first, rest, rfl, _, noBracket⟩ := begins
  rw [nextElement, skipSpaces_cons_of_not_space (by decide)]
  simp [noSpaces, noBracket]

theorem Reader.read_list_bracket
    {α : Type} (item : Reader α) (text : List Char) :
    (Reader.list item).read ('[' :: text) = readElements item [] true text :=
  rfl

section Elements

variable {α : Type} {item : Reader α} {reversed : List α} {first : Bool}
variable {text start rest : List Char} {value : α}

theorem readElements_of_closed
    (next : nextElement first text = .ok (.closed rest)) :
    readElements item reversed first text = .ok (reversed.reverse, rest) := by
  rw [readElements]
  split <;> simp_all

theorem readElements_of_element
    (next : nextElement first text = .ok (.element start))
    (taken : item.read start = .ok (value, rest)) :
    readElements item reversed first text =
      readElements item (value :: reversed) false rest := by
  rw [readElements]
  split
  case h_3 other found =>
    obtain rfl : other = start := by
      rw [found, Except.ok.injEq, NextElement.element.injEq] at next
      exact next
    split <;> simp_all
  all_goals simp_all

end Elements

/-- What follows an element of a list is no part of a number. -/
theorem stops_elements_close
    {α : Type} (form : α → List Char) (values : List α) (rest : List Char) :
    Stops continuesNumber
      (values.flatMap (fun value => ',' :: form value) ++ ']' :: rest) := by
  cases values with
  | nil =>
      exact stops_cons _ (by decide) rest
  | cons next others =>
      exact stops_cons _ (by decide) _

theorem readElements_forms_append
    {α : Type} {item : Reader α} {form : α → List Char} {values : List α}
    (isForm : ∀ value ∈ values, item.IsForm (form value) value)
    (reversed : List α) (rest : List Char) :
    readElements item reversed false
        (values.flatMap (fun value => ',' :: form value) ++ ']' :: rest) =
      .ok (reversed.reverse ++ values, rest) := by
  induction values generalizing reversed with
  | nil =>
      rw [List.flatMap_nil, List.nil_append, List.append_nil]
      exact readElements_of_closed (nextElement_close false rest)
  | cons value values inductionHypothesis =>
      have headForm := isForm value List.mem_cons_self
      rw [List.flatMap_cons, List.cons_append, List.cons_append,
        List.append_assoc,
        readElements_of_element
          (nextElement_comma (headForm.begins.append _))
          (headForm.reads (stops_elements_close form values rest)),
        inductionHypothesis fun other member =>
          isForm other (List.mem_cons_of_mem value member),
        List.reverse_cons, List.append_assoc, List.singleton_append]

theorem intercalate_comma_cons
    (first : List Char) (others : List (List Char)) :
    [','].intercalate (first :: others) =
      first ++ others.flatMap (',' :: ·) := by
  induction others generalizing first with
  | nil =>
      rw [List.intercalate_singleton, List.flatMap_nil, List.append_nil]
  | cons next others inductionHypothesis =>
      rw [List.intercalate_cons_cons, inductionHypothesis,
        List.flatMap_cons, List.append_assoc]
      rfl

/-- Forms in brackets with commas between them make up a form of the list. -/
theorem Reader.IsForm.list
    {α : Type} {item : Reader α} {form : α → List Char} {values : List α}
    (isForm : ∀ value ∈ values, item.IsForm (form value) value) :
    (Reader.list item).IsForm
      ('[' :: [','].intercalate (values.map form) ++ [']']) values where
  begins :=
    ⟨'[', _, rfl, by decide, by decide⟩
  reads {rest} _ := by
    rw [List.cons_append, List.cons_append, Reader.read_list_bracket]
    cases values with
    | nil =>
        exact readElements_of_closed (nextElement_close true rest)
    | cons value values =>
        have headForm := isForm value List.mem_cons_self
        rw [List.map_cons, intercalate_comma_cons, List.flatMap_map,
          List.append_assoc, List.append_assoc, List.singleton_append,
          readElements_of_element
            (nextElement_first (headForm.begins.append _))
            (headForm.reads (stops_elements_close form values rest)),
          readElements_forms_append fun other member =>
            isForm other (List.mem_cons_of_mem value member)]
        rfl

end SemanticTokens.Json
