import SemanticTokens.Json.Skip
import SemanticTokens.Json.Value
import SemanticTokens.Proofs.Json.Literals
import SemanticTokens.Proofs.Json.Scanners

/-!
# Tokens do not depend on what follows

What is read or skipped at the front of a text is decided by what is taken.
When more is put behind the text, the same is taken, and what was left has the
addition behind it.  The one exception is a number at the very end of a text,
which the addition may carry on; so something must have been left.  Words and
strings end with a mark of their own and need no such condition.
-/

namespace SemanticTokens.Json

open CodeUnit (isTrailingSurrogate)

/-! ## Marks and blanks -/

theorem skipSpaces_append
    {text : List Char} (remains : skipSpaces text ≠ []) (more : List Char) :
    skipSpaces (text ++ more) = skipSpaces text ++ more := by
  rw [skipSpaces] at remains ⊢
  rw [List.dropWhile_append, if_neg (by simpa using remains), skipSpaces]

theorem skipSpaces_append_of_eq_cons
    {text rest : List Char} {first : Char}
    (heading : skipSpaces text = first :: rest) (more : List Char) :
    skipSpaces (text ++ more) = first :: (rest ++ more) := by
  have remains : skipSpaces text ≠ [] := by
    rw [heading]
    exact List.cons_ne_nil first rest
  rw [skipSpaces_append remains, heading, List.cons_append]

theorem readLetters_append
    {letters text rest : List Char}
    (read : readLetters letters text = .ok rest) (more : List Char) :
    readLetters letters (text ++ more) = .ok (rest ++ more) := by
  induction letters generalizing text with
  | nil =>
      cases read
      rfl
  | cons letter letters inductionHypothesis =>
      cases text with
      | nil =>
          cases read
      | cons character text =>
          rw [readLetters] at read
          rw [List.cons_append, readLetters]
          split at read
          · rename_i same
            rw [if_pos same, inductionHypothesis read]
          · cases read

/-! ## Numbers -/

theorem readNumber_append
    {text rest : List Char} {number : Number} (remains : rest ≠ [])
    (more : List Char) (read : readNumber text = .ok (number, rest)) :
    readNumber (text ++ more) = .ok (number, rest ++ more) :=
  Scanner.scan_append read remains more

theorem skipNumber_append
    {text rest : List Char} (remains : rest ≠ []) (more : List Char)
    (skip : skipNumber text = .ok rest) :
    skipNumber (text ++ more) = .ok (rest ++ more) := by
  rw [skipNumber_eq_ok_iff] at skip ⊢
  exact Scanner.scan_append skip remains more

/-! ## Strings -/

theorem utf8Size_of_hexDigitValue?
    {digit : Char} {value : Nat}
    (read : hexDigitValue? digit = some value) :
    digit.utf8Size = 1 := by
  rw [Char.utf8Size_eq_one_iff, UInt32.le_iff_toNat_le]
  change digit.toNat ≤ 127
  rw [hexDigitValue?] at read
  simp only [Char.le_def, UInt32.le_iff_toNat_le] at read
  change
    (if 48 ≤ digit.toNat ∧ digit.toNat ≤ 57 then _
      else if 97 ≤ digit.toNat ∧ digit.toNat ≤ 102 then _
      else if 65 ≤ digit.toNat ∧ digit.toNat ≤ 70 then _
      else none) = some value at read
  split at read
  · omega
  · split at read
    · omega
    · split at read
      · omega
      · cases read

/-- Hexadecimal digits have one byte each. -/
theorem byteCount_of_hexValue?
    {digits : List Char} {value : Nat}
    (read : hexValue? digits = some value) :
    byteCount digits = digits.length := by
  have fromStart :
      ∀ start : Nat,
        digits.foldlM
            (fun value digit => (value * 16 + ·) <$> hexDigitValue? digit)
            start = some value →
          byteCount digits = digits.length := by
    clear read
    induction digits with
    | nil =>
        intro start _
        rfl
    | cons digit digits inductionHypothesis =>
        intro start read
        rw [List.foldlM_cons] at read
        obtain ⟨next, first, others⟩ := Option.bind_eq_some_iff.mp read
        obtain ⟨digitValue, isDigit, _⟩ := Option.map_eq_some_iff.mp first
        have size := utf8Size_of_hexDigitValue? isDigit
        have tail := inductionHypothesis next others
        rw [byteCount] at tail ⊢
        rw [CodeUnit.size_cons, tail, CodeUnit.width, size,
          List.length_cons, Nat.add_comm]
  exact fromStart 0 read

section Strings

variable {text rest : List Char} (more : List Char)

theorem readHexEscape_append
    {value : Nat} (read : readHexEscape text = .ok (value, rest)) :
    readHexEscape (text ++ more) = .ok (value, rest ++ more) := by
  rw [readHexEscape] at read ⊢
  split at read
  · cases read
  · rename_i enough
    cases digits : hexValue? (text.take 4) with
    | none =>
        rw [digits] at read
        cases read
    | some taken =>
        rw [digits] at read
        cases read
        -- Four bytes were enough for four digits, so none is in the addition.
        have four : 4 ≤ text.length := by
          rw [byteCount_of_hexValue? digits, List.length_take] at enough
          omega
        rw [List.take_append_of_le_length four, if_neg enough, digits,
          List.drop_append_of_le_length four]

theorem readPairMark_append
    {mark : Char} (read : readPairMark mark text = .ok rest) :
    readPairMark mark (text ++ more) = .ok (rest ++ more) := by
  cases text with
  | nil =>
      cases read
  | cons character text =>
      rw [readPairMark] at read
      rw [List.cons_append, readPairMark]
      split at read
      · rename_i same
        cases read
        rw [if_pos same]
      · cases read

theorem readUnicodeEscape_append
    {character : Char} (read : readUnicodeEscape text = .ok (character, rest)) :
    readUnicodeEscape (text ++ more) = .ok (character, rest ++ more) := by
  unfold readUnicodeEscape at read ⊢
  obtain ⟨⟨unit, afterUnit⟩, unitRead, read⟩ := exists_of_bind_ok read
  rw [readHexEscape_append more unitRead]
  change (if isTrailingSurrogate unit = true then _ else _) = _
  dsimp only at read
  split at read
  · cases read
  · rename_i noTrailing
    rw [if_neg noTrailing]
    split at read
    · rename_i leading
      obtain ⟨afterBackslash, backslash, read⟩ := exists_of_bind_ok read
      obtain ⟨afterLetter, letter, read⟩ := exists_of_bind_ok read
      obtain ⟨⟨trailing, afterPair⟩, pairRead, read⟩ := exists_of_bind_ok read
      rw [if_pos leading, readPairMark_append more backslash]
      change Except.bind (readPairMark 'u' (afterBackslash ++ more)) _ = _
      rw [readPairMark_append more letter]
      change Except.bind (readHexEscape (afterLetter ++ more)) _ = _
      rw [readHexEscape_append more pairRead]
      change (if isTrailingSurrogate trailing = true then _ else _) = _
      dsimp only at read
      split at read
      · rename_i isTrailing
        rw [if_pos isTrailing]
        simp only [pure, Except.pure, Except.ok.injEq, Prod.mk.injEq]
          at read ⊢
        exact ⟨read.1, by rw [read.2]⟩
      · cases read
    · rename_i noLeading
      cases read
      rw [if_neg noLeading]
      rfl

theorem readEscape_append
    {character : Char} (read : readEscape text = .ok (character, rest)) :
    readEscape (text ++ more) = .ok (character, rest ++ more) := by
  cases text with
  | nil =>
      cases read
  | cons letter text =>
      rw [readEscape] at read
      rw [List.cons_append, readEscape]
      cases simple : simpleEscape? letter with
      | some escaped =>
          rw [simple] at read
          cases read
          rfl
      | none =>
          rw [simple] at read
          dsimp only at read ⊢
          by_cases unicode : letter = 'u'
          · rw [if_pos unicode] at read ⊢
            exact readUnicodeEscape_append more read
          · rw [if_neg unicode] at read
            cases read

theorem skipEscape_append
    (skip : skipEscape text = .ok rest) :
    skipEscape (text ++ more) = .ok (rest ++ more) := by
  cases text with
  | nil =>
      cases skip
  | cons letter text =>
      rw [skipEscape] at skip
      rw [List.cons_append, skipEscape]
      cases simple : simpleEscape? letter with
      | some escaped =>
          rw [simple] at skip
          cases skip
          rfl
      | none =>
          rw [simple] at skip
          dsimp only at skip ⊢
          by_cases unicode : letter = 'u'
          · rw [if_pos unicode] at skip ⊢
            cases digits : readHexEscape text with
            | error fault =>
                rw [digits] at skip
                cases skip
            | ok taken =>
                rw [digits] at skip
                cases skip
                rw [readHexEscape_append more digits]
                rfl
          · rw [if_neg unicode] at skip
            cases skip

theorem readString_append
    {reversed value : List Char}
    (read : readString reversed text = .ok (value, rest)) :
    readString reversed (text ++ more) = .ok (value, rest ++ more) := by
  fun_induction readString reversed text with
  | case1 =>
      cases read
  | case2 reversed tail =>
      cases read
      exact readString_quote reversed _
  | case3 =>
      cases read
  | case4 reversed text escaped tail escape _ inductionHypothesis =>
      rw [List.cons_append,
        readString_of_readEscape (readEscape_append more escape),
        inductionHypothesis read]
  | case5 =>
      cases read
  | case6 reversed character tail notQuote notBackslash notControl
      inductionHypothesis =>
      rw [List.cons_append,
        readString_cons notQuote notBackslash notControl,
        inductionHypothesis read]

theorem skipString_append
    (skip : skipString text = .ok rest) :
    skipString (text ++ more) = .ok (rest ++ more) := by
  fun_induction skipString text with
  | case1 =>
      cases skip
  | case2 tail =>
      cases skip
      exact skipString_quote _
  | case3 =>
      cases skip
  | case4 text tail escape _ inductionHypothesis =>
      rw [List.cons_append,
        skipString_of_skipEscape (skipEscape_append more escape),
        inductionHypothesis skip]
  | case5 =>
      cases skip
  | case6 character tail notQuote notBackslash notControl
      inductionHypothesis =>
      rw [List.cons_append,
        skipString_cons notQuote notBackslash notControl,
        inductionHypothesis skip]

end Strings

end SemanticTokens.Json
