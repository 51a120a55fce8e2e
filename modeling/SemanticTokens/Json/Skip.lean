import SemanticTokens.Json.Number
import SemanticTokens.Json.StringLiteral

/-!
# Skipping values

A value that nobody asks for is checked for its form and dropped.  The
brackets that are open are kept in a list, innermost first, so that values may
be nested to any depth.
-/

namespace SemanticTokens.Json

inductive Bracket where
  | list
  | object
  deriving DecidableEq, Repr

namespace Bracket

def closing : Bracket → Char
  | list => ']'
  | object => '\x7d'

/-- What is wrong when a text ends inside the bracket. -/
def ended : Bracket → Cause
  | list => .endInList
  | object => .endInObject

def expectedSeparator : Bracket → Cause
  | list => .expectedListSeparator
  | object => .expectedObjectSeparator

end Bracket

/-- Skips a value that is no list and no object, at the front of the text. -/
def skipScalar : List Char → Except Fault (List Char)
  | [] => .error (.past .endInValue [])
  | 'n' :: rest => readLetters ['u', 'l', 'l'] rest
  | 't' :: rest => readLetters ['r', 'u', 'e'] rest
  | 'f' :: rest => readLetters ['a', 'l', 's', 'e'] rest
  | '"' :: rest => skipString rest
  | character :: rest =>
      if character = '-' || character.isDigit then skipNumber (character :: rest)
      else .error (.past .expectedValue (character :: rest))

def skipColon (text : List Char) : Except Fault (List Char) :=
  match skipSpaces text with
  | [] => .error (.past .endInObject [])
  | ':' :: rest => .ok rest
  | rest => .error (.past .expectedColon rest)

def skipKey (text : List Char) : Except Fault (List Char) :=
  match skipSpaces text with
  | [] => .error (.past .endInObject [])
  | '"' :: rest => do skipColon (← skipString rest)
  | rest => .error (.past .keyMustBeString rest)

/-- Goes to where the next value inside a bracket begins. -/
def skipToValue (bracket : Bracket) (text : List Char) : Except Fault (List Char) :=
  match bracket with
  | .list => .ok text
  | .object => skipKey text

inductive SkipStage where
  | value
  | afterValue
  deriving DecidableEq, Repr

structure SkipState where
  stage : SkipStage
  /-- The open brackets, innermost first. -/
  brackets : List Bracket
  rest : List Char
  deriving Repr

namespace SkipState

/-- Enters a bracket after its opening character, or leaves it again if it is empty. -/
def enter (outer : List Bracket) (bracket : Bracket) (text : List Char) :
    Except Fault SkipState :=
  match skipSpaces text with
  | [] => .error (.past bracket.ended [])
  | character :: rest =>
      if character = bracket.closing then .ok ⟨.afterValue, outer, rest⟩
      else do return ⟨.value, bracket :: outer, ← skipToValue bracket (character :: rest)⟩

def beginValue (brackets : List Bracket) (text : List Char) : Except Fault SkipState :=
  match skipSpaces text with
  | '[' :: rest => enter brackets .list rest
  | '\x7b' :: rest => enter brackets .object rest
  | start => do return ⟨.afterValue, brackets, ← skipScalar start⟩

def continueBracket (bracket : Bracket) (outer : List Bracket) (text : List Char) :
    Except Fault SkipState :=
  match skipSpaces text with
  | [] => .error (.past bracket.ended [])
  | character :: rest =>
      if character = bracket.closing then .ok ⟨.afterValue, outer, rest⟩
      else if character = ',' then do
        return ⟨.value, bracket :: outer, ← skipToValue bracket rest⟩
      else .error (.past bracket.expectedSeparator (character :: rest))

end SkipState

theorem length_lt_of_skipScalar {text rest : List Char}
    (skip : skipScalar text = .ok rest) : rest.length < text.length := by
  unfold skipScalar at skip
  split at skip
  · simp at skip
  · exact Nat.lt_succ_of_le (length_le_of_readLetters skip)
  · exact Nat.lt_succ_of_le (length_le_of_readLetters skip)
  · exact Nat.lt_succ_of_le (length_le_of_readLetters skip)
  · exact Nat.lt_succ_of_lt (length_lt_of_skipString skip)
  · split at skip
    · exact length_lt_of_skipNumber skip
    · simp at skip

theorem length_lt_of_skipColon {text rest : List Char}
    (skip : skipColon text = .ok rest) : rest.length < text.length := by
  have spaces := length_skipSpaces_le text
  unfold skipColon at skip
  split at skip
  · simp at skip
  · rename_i heading
    simp only [Except.ok.injEq] at skip
    subst skip
    rw [heading, List.length_cons] at spaces
    omega
  · simp at skip

theorem length_lt_of_skipKey {text rest : List Char}
    (skip : skipKey text = .ok rest) : rest.length < text.length := by
  have spaces := length_skipSpaces_le text
  unfold skipKey at skip
  split at skip
  · simp at skip
  · rename_i heading
    obtain ⟨afterKey, key, colon⟩ := exists_of_bind_ok skip
    have keyLength := length_lt_of_skipString key
    have colonLength := length_lt_of_skipColon colon
    rw [heading, List.length_cons] at spaces
    omega
  · simp at skip

theorem length_le_of_skipToValue {bracket : Bracket} {text rest : List Char}
    (skip : skipToValue bracket text = .ok rest) : rest.length ≤ text.length := by
  cases bracket with
  | list =>
      simp only [skipToValue, Except.ok.injEq] at skip
      exact Nat.le_of_eq (congrArg List.length skip.symm)
  | object => exact Nat.le_of_lt (length_lt_of_skipKey skip)

namespace SkipState

theorem length_le_of_enter {outer : List Bracket} {bracket : Bracket} {text : List Char}
    {next : SkipState} (step : enter outer bracket text = .ok next) :
    next.rest.length ≤ text.length := by
  have spaces := length_skipSpaces_le text
  unfold enter at step
  split at step
  · simp at step
  · rename_i heading
    rw [heading] at spaces
    split at step
    · simp only [Except.ok.injEq] at step
      subst step
      exact Nat.le_of_succ_le spaces
    · obtain ⟨start, toValue, result⟩ := exists_of_bind_ok step
      simp only [pure, Except.pure, Except.ok.injEq] at result
      subst result
      exact Nat.le_trans (length_le_of_skipToValue toValue) spaces

theorem length_lt_of_beginValue {brackets : List Bracket} {text : List Char}
    {next : SkipState} (step : beginValue brackets text = .ok next) :
    next.rest.length < text.length := by
  have spaces := length_skipSpaces_le text
  unfold beginValue at step
  split at step
  · rename_i heading
    rw [heading] at spaces
    exact Nat.lt_of_le_of_lt (length_le_of_enter step) spaces
  · rename_i heading
    rw [heading] at spaces
    exact Nat.lt_of_le_of_lt (length_le_of_enter step) spaces
  · obtain ⟨rest, scalar, result⟩ := exists_of_bind_ok step
    simp only [pure, Except.pure, Except.ok.injEq] at result
    subst result
    exact Nat.lt_of_lt_of_le (length_lt_of_skipScalar scalar) spaces

theorem length_lt_of_continueBracket {bracket : Bracket} {outer : List Bracket}
    {text : List Char} {next : SkipState}
    (step : continueBracket bracket outer text = .ok next) :
    next.rest.length < text.length := by
  have spaces := length_skipSpaces_le text
  unfold continueBracket at step
  split at step
  · simp at step
  · rename_i heading
    rw [heading] at spaces
    split at step
    · simp only [Except.ok.injEq] at step
      subst step
      exact spaces
    · split at step
      · obtain ⟨start, toValue, result⟩ := exists_of_bind_ok step
        simp only [pure, Except.pure, Except.ok.injEq] at result
        subst result
        exact Nat.lt_of_le_of_lt (length_le_of_skipToValue toValue) spaces
      · simp at step

/-- Skips what is left of a value, with all that its open brackets enclose. -/
def finish (stage : SkipStage) (brackets : List Bracket) (text : List Char) :
    Except Fault (List Char) :=
  match stage, brackets with
  | .value, brackets =>
      match _step : beginValue brackets text with
      | .error fault => .error fault
      | .ok next => finish next.stage next.brackets next.rest
  | .afterValue, [] => .ok text
  | .afterValue, bracket :: outer =>
      match _step : continueBracket bracket outer text with
      | .error fault => .error fault
      | .ok next => finish next.stage next.brackets next.rest
termination_by text.length
decreasing_by
  · exact length_lt_of_beginValue _step
  · exact length_lt_of_continueBracket _step

theorem length_le_of_finish {stage : SkipStage} {brackets : List Bracket}
    {text rest : List Char} (skip : finish stage brackets text = .ok rest) :
    rest.length ≤ text.length := by
  fun_induction finish stage brackets text with
  | case1 => simp at skip
  | case2 _ _ next step inductionHypothesis =>
      exact Nat.le_trans (inductionHypothesis skip) (Nat.le_of_lt (length_lt_of_beginValue step))
  | case3 =>
      simp only [Except.ok.injEq] at skip
      exact Nat.le_of_eq (congrArg List.length skip.symm)
  | case4 => simp at skip
  | case5 _ _ _ next step inductionHypothesis =>
      exact Nat.le_trans (inductionHypothesis skip)
        (Nat.le_of_lt (length_lt_of_continueBracket step))

end SkipState

def skipValue (text : List Char) : Except Fault (List Char) :=
  SkipState.finish .value [] text

theorem length_le_of_skipValue {text rest : List Char}
    (skip : skipValue text = .ok rest) : rest.length ≤ text.length :=
  SkipState.length_le_of_finish skip

end SemanticTokens.Json
