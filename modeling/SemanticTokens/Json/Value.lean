import SemanticTokens.Json.Number
import SemanticTokens.Json.StringLiteral

/-!
# Readers of values

Each reader takes one kind of value and refuses the others by name.  A scalar
of the wrong kind is read to its end first, so that a fault inside it comes
before the complaint about its kind; a list or an object is refused at its
opening bracket.
-/

namespace SemanticTokens.Json

/-- Reads a scalar by its first character; lists and objects are only named. -/
def readFound : List Char → Except Fault (Found × List Char)
  | [] => .error (.past .endInValue [])
  | 'n' :: rest => do return (.null, ← readLetters ['u', 'l', 'l'] rest)
  | 't' :: rest => do return (.boolean true, ← readLetters ['r', 'u', 'e'] rest)
  | 'f' :: rest => do return (.boolean false, ← readLetters ['a', 'l', 's', 'e'] rest)
  | '"' :: rest => (readString [] rest).map fun (value, rest) => (.string value, rest)
  | '[' :: rest => .ok (.list, '[' :: rest)
  | '\x7b' :: rest => .ok (.object, '\x7b' :: rest)
  | character :: rest =>
      if character = '-' || character.isDigit then
        (readNumber (character :: rest)).map fun (value, rest) => (.number value, rest)
      else .error (.past .expectedValue (character :: rest))

def unexpected (expected : Expected) (text : List Char) : Fault :=
  match readFound text with
  | .error fault => fault
  | .ok (found, rest) => .here (.invalidType found expected) rest

/-! ## Text -/

def readText (text : List Char) : Reading String :=
  match skipSpaces text with
  | '"' :: rest => (readString [] rest).map fun (value, rest) => (String.ofList value, rest)
  | start => .error (unexpected .string start)

/-! ## Truth values -/

def readBoolean (text : List Char) : Except Fault (Bool × List Char) :=
  match skipSpaces text with
  | 't' :: rest => do return (true, ← readLetters ['r', 'u', 'e'] rest)
  | 'f' :: rest => do return (false, ← readLetters ['a', 'l', 's', 'e'] rest)
  | start => .error (unexpected .boolean start)

/-! ## Words -/

/-- The word that a number stands for, if it is a natural number of 32 bits. -/
def wordOfNumber (rest : List Char) : Number → Reading UInt32
  | .integer value =>
      if 0 ≤ value ∧ value.toNat < UInt32.size then .ok (UInt32.ofNat value.toNat, rest)
      else .error (.here (.integerOutOfRange value) rest)
  | number => .error (.here (.invalidType (.number number) .word) rest)

def readOptionalWord (text : List Char) : Except Fault (Option UInt32 × List Char) :=
  match skipSpaces text with
  | [] => .error (unexpected .word [])
  | 'n' :: rest => do return (none, ← readLetters ['u', 'l', 'l'] rest)
  | character :: rest =>
      if character = '-' || character.isDigit then do
        let (number, rest) ← readNumber (character :: rest)
        let (word, rest) ← wordOfNumber rest number
        return (some word, rest)
      else .error (unexpected .word (character :: rest))

/-! ## Lists -/

def readList (item : Reader α) (text : List Char) : Reading (List α) :=
  match skipSpaces text with
  | '[' :: rest => readElements item [] true rest
  | start => .error (unexpected .list start)

/-! ## Progress -/

theorem length_lt_of_readText {text rest : List Char} {value : String}
    (read : readText text = .ok (value, rest)) : rest.length < text.length := by
  have spaces := length_skipSpaces_le text
  unfold readText at read
  split at read
  · rename_i tail heading
    rw [heading, List.length_cons] at spaces
    cases characters : readString [] tail with
    | error fault => simp [characters, Except.map] at read
    | ok result =>
        have shorter := length_lt_of_readString characters
        simp only [characters, Except.map, Except.ok.injEq, Prod.mk.injEq] at read
        obtain ⟨-, rfl⟩ := read
        omega
  · simp at read

theorem length_lt_of_readBoolean {text rest : List Char} {value : Bool}
    (read : readBoolean text = .ok (value, rest)) : rest.length < text.length := by
  have spaces := length_skipSpaces_le text
  unfold readBoolean at read
  split at read
  · rename_i heading
    rw [heading] at spaces
    obtain ⟨after, letters, result⟩ := exists_of_bind_ok read
    simp only [pure, Except.pure, Except.ok.injEq, Prod.mk.injEq] at result
    obtain ⟨-, rfl⟩ := result
    exact Nat.lt_of_le_of_lt (length_le_of_readLetters letters) spaces
  · rename_i heading
    rw [heading] at spaces
    obtain ⟨after, letters, result⟩ := exists_of_bind_ok read
    simp only [pure, Except.pure, Except.ok.injEq, Prod.mk.injEq] at result
    obtain ⟨-, rfl⟩ := result
    exact Nat.lt_of_le_of_lt (length_le_of_readLetters letters) spaces
  · simp at read

theorem rest_of_wordOfNumber {rest after : List Char} {number : Number} {word : UInt32}
    (read : wordOfNumber rest number = .ok (word, after)) : after = rest := by
  cases number with
  | integer value =>
      simp only [wordOfNumber] at read
      split at read
      · simp only [Except.ok.injEq, Prod.mk.injEq] at read
        exact read.2.symm
      · simp at read
  | floating negative magnitude => simp [wordOfNumber] at read

theorem length_lt_of_readOptionalWord {text rest : List Char} {value : Option UInt32}
    (read : readOptionalWord text = .ok (value, rest)) : rest.length < text.length := by
  have spaces := length_skipSpaces_le text
  unfold readOptionalWord at read
  split at read
  · simp at read
  · rename_i heading
    rw [heading] at spaces
    obtain ⟨after, letters, result⟩ := exists_of_bind_ok read
    simp only [pure, Except.pure, Except.ok.injEq, Prod.mk.injEq] at result
    obtain ⟨-, rfl⟩ := result
    exact Nat.lt_of_le_of_lt (length_le_of_readLetters letters) spaces
  · rename_i heading
    rw [heading] at spaces
    split at read
    · obtain ⟨⟨number, afterNumber⟩, numberRead, wordRead⟩ := exists_of_bind_ok read
      obtain ⟨⟨word, afterWord⟩, wordOf, result⟩ := exists_of_bind_ok wordRead
      have same := rest_of_wordOfNumber wordOf
      simp only [pure, Except.pure, Except.ok.injEq, Prod.mk.injEq] at result
      obtain ⟨-, rfl⟩ := result
      subst same
      exact Nat.lt_of_lt_of_le (length_lt_of_readNumber numberRead) spaces
    · simp at read

theorem length_lt_of_readList {item : Reader α} {text rest : List Char} {values : List α}
    (read : readList item text = .ok (values, rest)) : rest.length < text.length := by
  have spaces := length_skipSpaces_le text
  unfold readList at read
  split at read
  · rename_i heading
    rw [heading, List.length_cons] at spaces
    have shorter := length_lt_of_readElements read
    omega
  · simp at read

namespace Reader

def text : Reader String :=
  ⟨readText, length_lt_of_readText⟩

def boolean : Reader Bool :=
  ⟨readBoolean, length_lt_of_readBoolean⟩

def optionalWord : Reader (Option UInt32) :=
  ⟨readOptionalWord, length_lt_of_readOptionalWord⟩

def list (item : Reader α) : Reader (List α) :=
  ⟨readList item, length_lt_of_readList⟩

end Reader

end SemanticTokens.Json
