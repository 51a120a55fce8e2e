import SemanticTokens.Proofs.Json.Forms
import SemanticTokens.Proofs.Json.Grammar

/-!
# White space and strings of the grammar

White space of the grammar is passed over, and a string is read or passed over
up to its closing quote, whatever follows.
-/

namespace SemanticTokens.Json

open Text
open CodeUnit (not_surrogate isLeadingSurrogate_of_offset
  isTrailingSurrogate_of_isLeadingSurrogate isTrailingSurrogate_of_offset
  surrogatePair_of_offset)

/-! ## White space -/

theorem skipSpaces_blank_append
    {blank : List Char} (isBlank : Blank blank) (rest : List Char) :
    skipSpaces (blank ++ rest) = skipSpaces rest := by
  rw [skipSpaces, List.dropWhile_append_of_pos, skipSpaces]
  intro character member
  exact isSpace_iff.mpr (isBlank character member)

theorem skipSpaces_blank_cons
    {blank : List Char} (isBlank : Blank blank)
    {character : Char} (noSpace : isSpace character = false)
    (rest : List Char) :
    skipSpaces (blank ++ character :: rest) = character :: rest := by
  rw [skipSpaces_blank_append isBlank, skipSpaces_cons_of_not_space noSpace]

/-- No number goes on with white space. -/
theorem stops_blank_append
    {blank rest : List Char} (isBlank : Blank blank)
    (stops : Stops continuesNumber rest) :
    Stops continuesNumber (blank ++ rest) := by
  cases blank with
  | nil =>
      exact stops
  | cons space blank =>
      have among := isBlank space List.mem_cons_self
      apply stops_cons
      simp only [List.mem_cons, List.not_mem_nil, or_false] at among
      rcases among with rfl | rfl | rfl | rfl <;> decide

theorem stops_blank_cons
    {blank : List Char} (isBlank : Blank blank) {character : Char}
    (ends : continuesNumber character = false) (rest : List Char) :
    Stops continuesNumber (blank ++ character :: rest) :=
  stops_blank_append isBlank (stops_cons _ ends rest)

/-! ## Strings -/

section Strings

variable {character : Char} {form : List Char} {value : Nat}

theorem hexDigitValue?_toUpper_digitChar :
    ∀ digit < 16,
      hexDigitValue? (Nat.digitChar digit).toUpper = some digit := by
  decide

theorem HexDigitForm.hexDigitValue?_eq
    (isForm : HexDigitForm value character) :
    hexDigitValue? character = some value := by
  cases isForm with
  | small bound =>
      exact hexDigitValue?_digitChar value bound
  | capital bound =>
      exact hexDigitValue?_toUpper_digitChar value bound

theorem readHexEscape_form_append
    (isForm : HexForm value form) (rest : List Char) :
    readHexEscape (form ++ rest) = .ok (value, rest) := by
  cases isForm with
  | digits isA isB isC isD =>
      exact
        readHexEscape_of_values isA.hexDigitValue?_eq isB.hexDigitValue?_eq
          isC.hexDigitValue?_eq isD.hexDigitValue?_eq rest

theorem simpleEscape?_of_mem_letterEscapes
    {letter : Char} (among : (letter, character) ∈ letterEscapes) :
    simpleEscape? letter = some character := by
  simp only [letterEscapes, List.mem_cons, List.not_mem_nil, or_false,
    Prod.mk.injEq] at among
  rcases among with ⟨rfl, rfl⟩ | ⟨rfl, rfl⟩ | ⟨rfl, rfl⟩ | ⟨rfl, rfl⟩ |
    ⟨rfl, rfl⟩ | ⟨rfl, rfl⟩ | ⟨rfl, rfl⟩ | ⟨rfl, rfl⟩ <;> rfl

theorem readUnicodeEscape_unit_append
    (isForm : HexForm character.toNat form) (rest : List Char) :
    readUnicodeEscape (form ++ rest) = .ok (character, rest) := by
  obtain ⟨notTrailing, notLeading⟩ := not_surrogate character
  rw [readUnicodeEscape, readHexEscape_form_append isForm]
  simp only [bind, Except.bind, notTrailing, notLeading, Bool.false_eq_true,
    ↓reduceIte, pure, Except.pure, Char.ofNat_toNat]

theorem readUnicodeEscape_pair_append
    {offset : Nat} {leading trailing : List Char}
    (amount : character.toNat = 0x10000 + offset)
    (leadingForm : HexForm (0xd800 + offset / 0x400) leading)
    (trailingForm : HexForm (0xdc00 + offset % 0x400) trailing)
    (rest : List Char) :
    readUnicodeEscape
        (leading ++ '\\' :: 'u' :: (trailing ++ rest)) =
      .ok (character, rest) := by
  have valid : character.toNat.isValidChar := character.valid
  simp only [Nat.isValidChar] at valid
  have fits : offset < 0x100000 := by
    omega
  have isLeading := isLeadingSurrogate_of_offset fits
  have notTrailing := isTrailingSurrogate_of_isLeadingSurrogate isLeading
  rw [readUnicodeEscape, readHexEscape_form_append leadingForm]
  simp only [bind, Except.bind, notTrailing, isLeading, readPairMark,
    Bool.false_eq_true, ↓reduceIte]
  rw [readHexEscape_form_append trailingForm]
  simp only [isTrailingSurrogate_of_offset, ↓reduceIte, pure, Except.pure,
    surrogatePair_of_offset amount]

theorem readString_charForm_append
    (isForm : CharForm character form) (reversed rest : List Char) :
    readString reversed (form ++ rest) =
      readString (character :: reversed) rest := by
  cases isForm with
  | plain notQuote notBackslash notControl =>
      exact
        readString_cons notQuote notBackslash (Nat.not_lt.mpr notControl)
          reversed rest
  | letter among =>
      rw [List.cons_append, List.singleton_append]
      apply readString_of_readEscape
      rw [readEscape, simpleEscape?_of_mem_letterEscapes among]
  | unit digits =>
      apply readString_of_readEscape
      exact readUnicodeEscape_unit_append digits rest
  | pair amount leadingForm trailingForm =>
      rw [List.cons_append, List.cons_append, List.append_assoc]
      apply readString_of_readEscape
      exact
        readUnicodeEscape_pair_append amount leadingForm trailingForm rest

theorem skipString_hexEscape_append
    (isForm : HexForm value form) (rest : List Char) :
    skipString ('\\' :: 'u' :: (form ++ rest)) = skipString rest := by
  apply skipString_of_skipEscape
  change (readHexEscape (form ++ rest)).map Prod.snd = _
  rw [readHexEscape_form_append isForm]
  rfl

theorem skipString_charForm_append
    (isForm : CharForm character form) (rest : List Char) :
    skipString (form ++ rest) = skipString rest := by
  cases isForm with
  | plain notQuote notBackslash notControl =>
      exact
        skipString_cons notQuote notBackslash (Nat.not_lt.mpr notControl)
          rest
  | letter among =>
      rw [List.cons_append, List.singleton_append]
      apply skipString_of_skipEscape
      rw [skipEscape, simpleEscape?_of_mem_letterEscapes among]
  | unit digits =>
      exact skipString_hexEscape_append digits rest
  | pair amount leadingForm trailingForm =>
      -- A pair is skipped as two escapes that have nothing to do with each other.
      rw [List.cons_append, List.cons_append, List.append_assoc,
        skipString_hexEscape_append leadingForm]
      exact skipString_hexEscape_append trailingForm rest

theorem readString_charsForm_append
    {characters : List Char} (isForm : CharsForm characters form)
    (reversed rest : List Char) :
    readString reversed (form ++ '"' :: rest) =
      .ok (reversed.reverse ++ characters, rest) := by
  induction isForm generalizing reversed with
  | nil =>
      rw [List.nil_append, readString_quote, List.append_nil]
  | cons first _ inductionHypothesis =>
      rw [List.append_assoc, readString_charForm_append first,
        inductionHypothesis, List.reverse_cons, List.append_assoc,
        List.singleton_append]

theorem skipString_charsForm_append
    {characters : List Char} (isForm : CharsForm characters form)
    (rest : List Char) :
    skipString (form ++ '"' :: rest) = .ok rest := by
  induction isForm with
  | nil =>
      exact skipString_quote rest
  | cons first _ inductionHypothesis =>
      rw [List.append_assoc, skipString_charForm_append first,
        inductionHypothesis]

end Strings

end SemanticTokens.Json
