import SemanticTokens.Json.Fault

/-!
# Readers

A reader takes a value off the front of a text and returns what is left.  It
always takes something, which is what lets lists and objects of any length be
read by recursion on the text.  White space may stand before every token.
-/

namespace SemanticTokens.Json

abbrev Reading (α : Type) :=
  Except Fault (α × List Char)

/-- Takes a value off the front of a text. -/
structure Reader (α : Type) where
  read : List Char → Reading α
  /-- Something is taken. -/
  shorter : ∀ {text : List Char} {value : α} {rest : List Char},
    read text = .ok (value, rest) → rest.length < text.length

def isSpace (character : Char) : Bool :=
  character == ' ' || character == '\n' || character == '\t' || character == '\r'

def skipSpaces (text : List Char) : List Char :=
  text.dropWhile isSpace

def readLetters : List Char → List Char → Except Fault (List Char)
  | [], text => .ok text
  | _ :: _, [] => .error (.here .endInValue [])
  | letter :: letters, character :: rest =>
      if character = letter then readLetters letters rest
      else .error (.past .expectedIdentifier (character :: rest))

theorem exists_of_bind_ok {ε α β : Type} {first : Except ε α} {next : α → Except ε β}
    {result : β} (run : first >>= next = .ok result) :
    ∃ value, first = .ok value ∧ next value = .ok result := by
  cases first with
  | error fault => simp [bind, Except.bind] at run
  | ok value => exact ⟨value, rfl, run⟩

theorem length_skipSpaces_le (text : List Char) :
    (skipSpaces text).length ≤ text.length :=
  (List.dropWhile_suffix isSpace).length_le

theorem length_le_of_readLetters {letters text rest : List Char}
    (read : readLetters letters text = .ok rest) : rest.length ≤ text.length := by
  induction letters generalizing text with
  | nil =>
      simp only [readLetters, Except.ok.injEq] at read
      exact Nat.le_of_eq (congrArg List.length read.symm)
  | cons letter letters inductionHypothesis =>
      cases text with
      | nil => simp [readLetters] at read
      | cons character tail =>
          simp only [readLetters] at read
          split at read
          · have shorter := inductionHypothesis read
            simp only [List.length_cons]
            omega
          · simp at read

namespace Reader

def map (change : α → β) (reader : Reader α) : Reader β where
  read text := (reader.read text).map fun (value, rest) => (change value, rest)
  shorter := by
    intro text value rest read
    cases inner : reader.read text with
    | error fault => simp [inner, Except.map] at read
    | ok result =>
        simp only [inner, Except.map, Except.ok.injEq, Prod.mk.injEq] at read
        obtain ⟨-, rfl⟩ := read
        exact reader.shorter inner

end Reader

/-! ## Elements of a list -/

/-- What stands where an element of a list may begin. -/
inductive NextElement where
  /-- The closing bracket; the rest follows it. -/
  | closed (rest : List Char)
  /-- An element, at the front of the rest. -/
  | element (rest : List Char)

/-- Finds the next element of a list; a comma separates it from the one before. -/
def nextElement (first : Bool) (text : List Char) : Except Fault NextElement :=
  match skipSpaces text with
  | [] => .error (.past .endInList [])
  | ']' :: rest => .ok (.closed rest)
  | character :: rest =>
      if first then .ok (.element (character :: rest))
      else if character = ',' then
        match skipSpaces rest with
        | [] => .error (.past .endInValue [])
        | ']' :: rest => .error (.past .trailingComma (']' :: rest))
        | rest => .ok (.element rest)
      else .error (.past .expectedListSeparator (character :: rest))

/-- Takes the closing bracket of a list that can have no further element. -/
def closeList (text : List Char) : Except Fault (List Char) :=
  match skipSpaces text with
  | [] => .error (.past .endInList [])
  | ']' :: rest => .ok rest
  | ',' :: rest =>
      match skipSpaces rest with
      | ']' :: rest => .error (.past .trailingComma (']' :: rest))
      | rest => .error (.past .trailingCharacters rest)
  | rest => .error (.past .trailingCharacters rest)

theorem length_lt_of_nextElement_closed {first : Bool} {text rest : List Char}
    (next : nextElement first text = .ok (.closed rest)) : rest.length < text.length := by
  have spaces := length_skipSpaces_le text
  unfold nextElement at next
  split at next
  · simp at next
  · rename_i heading
    simp only [Except.ok.injEq, NextElement.closed.injEq] at next
    subst next
    rw [heading, List.length_cons] at spaces
    omega
  · split at next
    · simp at next
    · split at next
      · split at next <;> simp at next
      · simp at next

theorem length_le_of_nextElement {first : Bool} {text rest : List Char}
    (next : nextElement first text = .ok (.element rest)) : rest.length ≤ text.length := by
  have spaces := length_skipSpaces_le text
  unfold nextElement at next
  split at next
  · simp at next
  · simp at next
  · rename_i character tail _ heading
    split at next
    · simp only [Except.ok.injEq, NextElement.element.injEq] at next
      rw [← next, ← heading]
      exact spaces
    · split at next
      · have innerSpaces := length_skipSpaces_le tail
        rw [heading, List.length_cons] at spaces
        split at next
        · simp at next
        · simp at next
        · simp only [Except.ok.injEq, NextElement.element.injEq] at next
          subst next
          omega
      · simp at next

theorem length_lt_of_closeList {text rest : List Char}
    (close : closeList text = .ok rest) : rest.length < text.length := by
  have spaces := length_skipSpaces_le text
  unfold closeList at close
  split at close
  · simp at close
  · rename_i heading
    simp only [Except.ok.injEq] at close
    subst close
    rw [heading, List.length_cons] at spaces
    omega
  · split at close <;> simp at close
  · simp at close

/-- Reads the elements of a list up to its closing bracket.  Those already read
come last one first. -/
def readElements (item : Reader α) (reversed : List α) (first : Bool) (text : List Char) :
    Reading (List α) :=
  match _next : nextElement first text with
  | .error fault => .error fault
  | .ok (.closed rest) => .ok (reversed.reverse, rest)
  | .ok (.element start) =>
      match _reading : item.read start with
      | .error fault => .error fault
      | .ok (value, rest) =>
          readElements item (value :: reversed) false rest
termination_by text.length
decreasing_by
  have taken := item.shorter _reading
  have begun := length_le_of_nextElement _next
  omega

theorem length_lt_of_readElements {item : Reader α} {reversed : List α} {first : Bool}
    {text : List Char} {values : List α} {rest : List Char}
    (reading : readElements item reversed first text = .ok (values, rest)) :
    rest.length < text.length := by
  fun_induction readElements item reversed first text with
  | case1 => simp at reading
  | case2 reversed first text tail next =>
      simp only [Except.ok.injEq, Prod.mk.injEq] at reading
      obtain ⟨-, rfl⟩ := reading
      exact length_lt_of_nextElement_closed next
  | case3 => simp at reading
  | case4 reversed first text start next value tail readItem inductionHypothesis =>
      have shorter := inductionHypothesis reading
      have taken := item.shorter readItem
      have begun := length_le_of_nextElement next
      omega

end SemanticTokens.Json
