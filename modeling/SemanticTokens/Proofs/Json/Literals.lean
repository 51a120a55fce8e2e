import SemanticTokens.Json.StringLiteral

/-!
# Reading string literals

What the writer puts for a character is read as that character: the quotes, the
backslash and five controls by an escape of one letter, the other controls by
four hexadecimal digits, and everything else as it is.  Hence a literal is read
as the text that it was written for, up to its closing quote.
-/

namespace SemanticTokens.Json

open CodeUnit (not_surrogate)

/-! ## Steps of a literal -/

theorem readString_quote
    (reversed rest : List Char) :
    readString reversed ('"' :: rest) = .ok (reversed.reverse, rest) := by
  rw [readString, if_pos rfl]

theorem readString_of_readEscape
    {text rest : List Char} {character : Char}
    (escape : readEscape text = .ok (character, rest))
    (reversed : List Char) :
    readString reversed ('\\' :: text) =
      readString (character :: reversed) rest := by
  rw [readString, if_neg (by decide), if_pos rfl]
  split
  · rename_i failed
    rw [escape] at failed
    cases failed
  · rename_i other otherRest read
    rw [escape, Except.ok.injEq, Prod.mk.injEq] at read
    rw [read.1, read.2]

theorem readString_cons
    {character : Char} (notQuote : character ≠ '"')
    (notBackslash : character ≠ '\\')
    (notControl : ¬ character.toNat < 0x20) (reversed rest : List Char) :
    readString reversed (character :: rest) =
      readString (character :: reversed) rest := by
  rw [readString, if_neg notQuote, if_neg notBackslash, if_neg notControl]

theorem skipString_quote
    (rest : List Char) :
    skipString ('"' :: rest) = .ok rest := by
  rw [skipString, if_pos rfl]

theorem skipString_of_skipEscape
    {text rest : List Char} (escape : skipEscape text = .ok rest) :
    skipString ('\\' :: text) = skipString rest := by
  rw [skipString, if_neg (by decide), if_pos rfl]
  split
  · rename_i failed
    rw [escape] at failed
    cases failed
  · rename_i other read
    rw [escape, Except.ok.injEq] at read
    rw [read]

theorem skipString_cons
    {character : Char} (notQuote : character ≠ '"')
    (notBackslash : character ≠ '\\')
    (notControl : ¬ character.toNat < 0x20) (rest : List Char) :
    skipString (character :: rest) = skipString rest := by
  rw [skipString, if_neg notQuote, if_neg notBackslash, if_neg notControl]

/-! ## Escapes of control characters -/

theorem readHexEscape_of_values
    {a b c d : Char} {valueA valueB valueC valueD : Nat}
    (isA : hexDigitValue? a = some valueA)
    (isB : hexDigitValue? b = some valueB)
    (isC : hexDigitValue? c = some valueC)
    (isD : hexDigitValue? d = some valueD) (rest : List Char) :
    readHexEscape (a :: b :: c :: d :: rest) =
      .ok (((valueA * 16 + valueB) * 16 + valueC) * 16 + valueD, rest) := by
  have enough : ¬ byteCount [a, b, c, d] < 4 := by
    simp only [byteCount, CodeUnit.size_cons, CodeUnit.size_nil]
    have sizeA := CodeUnit.utf8.width_pos a
    have sizeB := CodeUnit.utf8.width_pos b
    have sizeC := CodeUnit.utf8.width_pos c
    have sizeD := CodeUnit.utf8.width_pos d
    omega
  have value :
      hexValue? [a, b, c, d] =
        some (((valueA * 16 + valueB) * 16 + valueC) * 16 + valueD) := by
    simp [hexValue?, isA, isB, isC, isD]
  rw [readHexEscape]
  simp only [List.take_succ_cons, List.take_zero, List.drop_succ_cons,
    List.drop_zero]
  rw [if_neg enough, value]

theorem hexDigitValue?_digitChar :
    ∀ digit < 16, hexDigitValue? (Nat.digitChar digit) = some digit := by
  decide

/-- Four hexadecimal digits escape a control character. -/
theorem readEscape_control
    {character : Char} (control : character.toNat < 0x20)
    (rest : List Char) :
    readEscape
        ('u' :: '0' :: '0' :: Nat.digitChar (character.toNat / 16) ::
          Nat.digitChar (character.toNat % 16) :: rest) =
      .ok (character, rest) := by
  have zero : hexDigitValue? '0' = some 0 := by
    decide
  have high := hexDigitValue?_digitChar (character.toNat / 16) (by omega)
  have low := hexDigitValue?_digitChar (character.toNat % 16) (by omega)
  have value :
      ((0 * 16 + 0) * 16 + character.toNat / 16) * 16 + character.toNat % 16 =
        character.toNat := by
    omega
  have digits := readHexEscape_of_values zero zero high low rest
  rw [value] at digits
  obtain ⟨notTrailing, notLeading⟩ := not_surrogate character
  have unicode :
      readUnicodeEscape
          ('0' :: '0' :: Nat.digitChar (character.toNat / 16) ::
            Nat.digitChar (character.toNat % 16) :: rest) =
        .ok (character, rest) := by
    rw [readUnicodeEscape, digits]
    simp [bind, Except.bind, notTrailing, notLeading, pure, Except.pure]
  rw [readEscape]
  exact unicode

/-! ## Written characters -/

theorem readString_literalChar_append
    (character : Char) (reversed rest : List Char) :
    readString reversed (literalChar character ++ rest) =
      readString (character :: reversed) rest := by
  unfold literalChar
  split
  case h_8 notQuote notBackslash _ _ _ _ _ =>
      by_cases control : character.toNat < 0x20
      · rw [if_pos control]
        exact readString_of_readEscape (readEscape_control control rest) reversed
      · rw [if_neg control]
        exact readString_cons notQuote notBackslash control reversed rest
  all_goals
    exact readString_of_readEscape rfl reversed

/-- A literal is read, after its opening quote, as the text that it was written
for. -/
theorem readString_flatMap_literalChar_append
    (text reversed rest : List Char) :
    readString reversed (text.flatMap literalChar ++ '"' :: rest) =
      .ok (reversed.reverse ++ text, rest) := by
  induction text generalizing reversed with
  | nil =>
      rw [List.flatMap_nil, List.nil_append, readString_quote,
        List.append_nil]
  | cons character text inductionHypothesis =>
      rw [List.flatMap_cons, List.append_assoc,
        readString_literalChar_append, inductionHypothesis,
        List.reverse_cons, List.append_assoc, List.singleton_append]

end SemanticTokens.Json
