import SemanticTokens.Json.Reader

/-!
# String literals

A string literal is text between double quotes.  Reading resolves the escapes;
a code point past `U+FFFF` takes two escapes, a leading and a trailing
surrogate.  Skipping checks only that every escape is complete.  Writing
escapes the quotes, the backslash and the control characters, and nothing
else.
-/

namespace SemanticTokens.Json

open CodeUnit (isLeadingSurrogate isTrailingSurrogate surrogatePair)

/-! ## Escapes -/

def hexDigitValue? (character : Char) : Option Nat :=
  if '0' ≤ character ∧ character ≤ '9' then some (character.toNat - '0'.toNat)
  else if 'a' ≤ character ∧ character ≤ 'f' then some (character.toNat - 'a'.toNat + 10)
  else if 'A' ≤ character ∧ character ≤ 'F' then some (character.toNat - 'A'.toNat + 10)
  else none

def hexValue? (digits : List Char) : Option Nat :=
  digits.foldlM (fun value digit => (value * 16 + ·) <$> hexDigitValue? digit) 0

/-- Reads the four hexadecimal digits of an escape.

Four bytes are taken before they are looked at, so a text with fewer than four
left ends inside the string whatever they are. -/
def readHexEscape (text : List Char) : Reading Nat :=
  if byteCount (text.take 4) < 4 then .error (.here .endInString [])
  else
    match hexValue? (text.take 4) with
    | some value => .ok (value, text.drop 4)
    | none => .error ⟨.invalidEscape, byteCount text - 4⟩

/-- Takes one given character that continues a pair of surrogates. -/
def readPairMark (mark : Char) : List Char → Except Fault (List Char)
  | [] => .error (.here .endInString [])
  | character :: rest =>
      if character = mark then .ok rest
      else .error (.past .endOfSurrogatePair (character :: rest))

/-- Reads the character of a hexadecimal escape, after the letter `u`. -/
def readUnicodeEscape (text : List Char) : Except Fault (Char × List Char) := do
  let (unit, rest) ← readHexEscape text
  if isTrailingSurrogate unit then
    throw (.here .loneSurrogate rest)
  else if isLeadingSurrogate unit then
    let rest ← readPairMark '\\' rest
    let rest ← readPairMark 'u' rest
    let (trailing, rest) ← readHexEscape rest
    if isTrailingSurrogate trailing then
      return (surrogatePair unit trailing, rest)
    else
      throw (.here .loneSurrogate rest)
  else
    return (Char.ofNat unit, rest)

def simpleEscape? : Char → Option Char
  | '"' => some '"'
  | '\\' => some '\\'
  | '/' => some '/'
  | 'b' => some '\x08'
  | 'f' => some '\x0c'
  | 'n' => some '\n'
  | 'r' => some '\r'
  | 't' => some '\t'
  | _ => none

def readEscape : List Char → Reading Char
  | [] => .error (.here .endInString [])
  | letter :: rest =>
      match simpleEscape? letter with
      | some character => .ok (character, rest)
      | none =>
          if letter = 'u' then readUnicodeEscape rest
          else .error (.past .invalidEscape (letter :: rest))

def skipEscape : List Char → Except Fault (List Char)
  | [] => .error (.here .endInString [])
  | letter :: rest =>
      match simpleEscape? letter with
      | some _ => .ok rest
      | none =>
          if letter = 'u' then (readHexEscape rest).map Prod.snd
          else .error (.past .invalidEscape (letter :: rest))

theorem length_le_of_readHexEscape {text rest : List Char} {value : Nat}
    (read : readHexEscape text = .ok (value, rest)) : rest.length ≤ text.length := by
  unfold readHexEscape at read
  split at read
  · simp at read
  · split at read
    · simp only [Except.ok.injEq, Prod.mk.injEq] at read
      obtain ⟨-, rfl⟩ := read
      simp
    · simp at read

theorem length_le_of_readPairMark {mark : Char} {text rest : List Char}
    (read : readPairMark mark text = .ok rest) : rest.length ≤ text.length := by
  cases text with
  | nil => simp [readPairMark] at read
  | cons character tail =>
      simp only [readPairMark] at read
      split at read
      · simp only [Except.ok.injEq] at read
        subst read
        simp
      · simp at read

theorem length_le_of_readUnicodeEscape {text rest : List Char} {character : Char}
    (read : readUnicodeEscape text = .ok (character, rest)) : rest.length ≤ text.length := by
  simp only [readUnicodeEscape, bind, Except.bind] at read
  split at read
  · simp at read
  · rename_i first firstRead
    have firstLength := length_le_of_readHexEscape firstRead
    split at read
    · simp [throw, throwThe, MonadExceptOf.throw] at read
    · split at read
      · split at read
        · simp at read
        · rename_i afterBackslash backslashRead
          have backslashLength := length_le_of_readPairMark backslashRead
          split at read
          · simp at read
          · rename_i afterLetter letterRead
            have letterLength := length_le_of_readPairMark letterRead
            split at read
            · simp at read
            · rename_i second secondRead
              have secondLength := length_le_of_readHexEscape secondRead
              split at read
              · simp only [pure, Except.pure, Except.ok.injEq, Prod.mk.injEq] at read
                obtain ⟨-, rfl⟩ := read
                omega
              · simp [throw, throwThe, MonadExceptOf.throw] at read
      · simp only [pure, Except.pure, Except.ok.injEq, Prod.mk.injEq] at read
        obtain ⟨-, rfl⟩ := read
        exact firstLength

theorem length_lt_of_readEscape {text rest : List Char} {character : Char}
    (read : readEscape text = .ok (character, rest)) : rest.length < text.length := by
  cases text with
  | nil => simp [readEscape] at read
  | cons letter tail =>
      simp only [readEscape] at read
      simp only [List.length_cons]
      split at read
      · simp only [Except.ok.injEq, Prod.mk.injEq] at read
        obtain ⟨-, rfl⟩ := read
        omega
      · split at read
        · have escapeLength := length_le_of_readUnicodeEscape read
          omega
        · simp at read

theorem length_lt_of_skipEscape {text rest : List Char}
    (read : skipEscape text = .ok rest) : rest.length < text.length := by
  cases text with
  | nil => simp [skipEscape] at read
  | cons letter tail =>
      simp only [skipEscape] at read
      simp only [List.length_cons]
      split at read
      · simp only [Except.ok.injEq] at read
        subst read
        omega
      · split at read
        · cases digits : readHexEscape tail with
          | error fault => simp [digits, Except.map] at read
          | ok result =>
              have digitsLength := length_le_of_readHexEscape digits
              simp only [digits, Except.map, Except.ok.injEq] at read
              subst read
              omega
        · simp at read

/-! ## Literals -/

/-- Reads a literal after its opening quote.  The characters already read come
last one first. -/
def readString (reversed : List Char) (text : List Char) : Reading (List Char) :=
  match text with
  | [] => .error (.here .endInString [])
  | character :: rest =>
      if character = '"' then .ok (reversed.reverse, rest)
      else if character = '\\' then
        match _reading : readEscape rest with
        | .error fault => .error fault
        | .ok (escaped, rest) => readString (escaped :: reversed) rest
      else if character.toNat < 0x20 then .error (.here .controlCharacter rest)
      else readString (character :: reversed) rest
termination_by text.length
decreasing_by
  · have escape := length_lt_of_readEscape _reading
    simp only [List.length_cons]
    omega
  · simp

def skipString (text : List Char) : Except Fault (List Char) :=
  match text with
  | [] => .error (.here .endInString [])
  | character :: rest =>
      if character = '"' then .ok rest
      else if character = '\\' then
        match _reading : skipEscape rest with
        | .error fault => .error fault
        | .ok rest => skipString rest
      else if character.toNat < 0x20 then .error (.here .controlCharacter (character :: rest))
      else skipString rest
termination_by text.length
decreasing_by
  · have escape := length_lt_of_skipEscape _reading
    simp only [List.length_cons]
    omega
  · simp

theorem length_lt_of_readString {reversed text value rest : List Char}
    (read : readString reversed text = .ok (value, rest)) : rest.length < text.length := by
  fun_induction readString reversed text with
  | case1 => simp at read
  | case2 =>
      simp only [Except.ok.injEq, Prod.mk.injEq] at read
      obtain ⟨-, rfl⟩ := read
      simp
  | case3 => simp at read
  | case4 _ _ _ _ escape _ inductionHypothesis =>
      have shorter := inductionHypothesis read
      have escapeLength := length_lt_of_readEscape escape
      simp only [List.length_cons]
      omega
  | case5 => simp at read
  | case6 _ _ _ _ _ _ inductionHypothesis =>
      have shorter := inductionHypothesis read
      simp only [List.length_cons]
      omega

theorem length_lt_of_skipString {text rest : List Char}
    (read : skipString text = .ok rest) : rest.length < text.length := by
  fun_induction skipString text with
  | case1 => simp at read
  | case2 =>
      simp only [Except.ok.injEq] at read
      subst read
      simp
  | case3 => simp at read
  | case4 _ _ escape _ inductionHypothesis =>
      have shorter := inductionHypothesis read
      have escapeLength := length_lt_of_skipEscape escape
      simp only [List.length_cons]
      omega
  | case5 => simp at read
  | case6 _ _ _ _ _ inductionHypothesis =>
      have shorter := inductionHypothesis read
      simp only [List.length_cons]
      omega

/-! ## Writing -/

def literalChar : Char → List Char
  | '"' => ['\\', '"']
  | '\\' => ['\\', '\\']
  | '\x08' => ['\\', 'b']
  | '\x0c' => ['\\', 'f']
  | '\n' => ['\\', 'n']
  | '\r' => ['\\', 'r']
  | '\t' => ['\\', 't']
  | character =>
      if character.toNat < 0x20 then
        ['\\', 'u', '0', '0', Nat.digitChar (character.toNat / 16),
          Nat.digitChar (character.toNat % 16)]
      else [character]

def literal (text : String) : String :=
  String.ofList ('"' :: text.toList.flatMap literalChar ++ ['"'])

end SemanticTokens.Json
