import SemanticTokens.Json.Reader

/-!
# Numbers

A number is taken off the front of a text one character at a time.  How far it
has come decides which characters may follow, whether it is read or skipped.
Reading gathers the digits into a 64-bit significand on the way.  When it is
full, further digits before the point only raise the power of ten, and further
digits after the point are dropped.  A number is an integer when it has neither
fraction nor exponent and fits 64 bits, and floating otherwise.
-/

namespace SemanticTokens.Json

open Numeral (Binary64)

/-! ## Scanners -/

/-- What becomes of the next character. -/
inductive Turn (σ : Type) where
  /-- It belongs to what is scanned. -/
  | take (next : σ)
  /-- What is scanned ends in front of it. -/
  | leave
  /-- It must not stand there. -/
  | refuse

def Turn.map (change : σ → τ) : Turn σ → Turn τ
  | take next => .take (change next)
  | leave => .leave
  | refuse => .refuse

structure Scanner (σ α : Type) where
  turn : σ → Char → Turn σ
  /-- What has been scanned, if it may end there. -/
  finish : σ → Except Cause α

namespace Scanner

variable (scanner : Scanner σ α)

def finishAt (state : σ) (rest : List Char) : Reading α :=
  match scanner.finish state with
  | .ok value => .ok (value, rest)
  | .error cause => .error (.here cause rest)

def scan (state : σ) : List Char → Reading α
  | [] => scanner.finishAt state []
  | character :: rest =>
      match scanner.turn state character with
      | .take next => scan next rest
      | .leave => scanner.finishAt state (character :: rest)
      | .refuse => .error (.past .invalidNumber (character :: rest))

variable {scanner} {state : σ} {text rest : List Char} {value : α}

theorem finishAt_eq_ok_iff :
    scanner.finishAt state text = .ok (value, rest) ↔
      scanner.finish state = .ok value ∧ text = rest := by
  unfold finishAt
  split
  · rename_i scanned finished
    rw [finished, Except.ok.injEq, Except.ok.injEq, Prod.mk.injEq]
  · rename_i cause finished
    simp [finished]

theorem length_le_of_scan (read : scanner.scan state text = .ok (value, rest)) :
    rest.length ≤ text.length := by
  induction text generalizing state with
  | nil =>
      obtain ⟨_, atEnd⟩ := finishAt_eq_ok_iff.mp read
      exact Nat.le_of_eq (congrArg List.length atEnd.symm)
  | cons character text inductionHypothesis =>
      rw [scan] at read
      split at read
      · exact Nat.le_succ_of_le (inductionHypothesis read)
      · obtain ⟨_, atCharacter⟩ := finishAt_eq_ok_iff.mp read
        exact Nat.le_of_eq (congrArg List.length atCharacter.symm)
      · cases read

/-- Something is taken if nothing has been scanned so far. -/
theorem length_lt_of_scan {cause : Cause} (unfinished : scanner.finish state = .error cause)
    (read : scanner.scan state text = .ok (value, rest)) : rest.length < text.length := by
  have noneTaken {place : List Char} (ended : scanner.finishAt state place = .ok (value, rest)) :
      False := by
    rw [finishAt, unfinished] at ended
    cases ended
  cases text with
  | nil => exact (noneTaken read).elim
  | cons character text =>
      rw [scan] at read
      split at read
      · exact Nat.lt_succ_of_le (length_le_of_scan read)
      · exact (noneTaken read).elim
      · cases read

end Scanner

/-! ## The form of a number -/

def isExponentMark (character : Char) : Bool :=
  character == 'e' || character == 'E'

/-- How far a number has come. -/
inductive Stage where
  | start
  | minus
  /-- A whole part of zero, which no digit may follow. -/
  | zero
  | whole
  | point
  | fraction
  | mark
  | exponentSign
  | exponent
  deriving DecidableEq, Repr

namespace Stage

def firstDigit (character : Char) : Turn Stage :=
  if character = '0' then .take zero
  else if character.isDigit then .take whole
  else .refuse

def afterFraction (character : Char) : Turn Stage :=
  if isExponentMark character then .take mark else .leave

def afterWhole (character : Char) : Turn Stage :=
  if character = '.' then .take point else afterFraction character

def turn (stage : Stage) (character : Char) : Turn Stage :=
  match stage with
  | start => if character = '-' then .take minus else firstDigit character
  | minus => firstDigit character
  | zero => if character.isDigit then .refuse else afterWhole character
  | whole => if character.isDigit then .take whole else afterWhole character
  | point => if character.isDigit then .take fraction else .refuse
  | fraction => if character.isDigit then .take fraction else afterFraction character
  | mark =>
      if character = '+' || character = '-' then .take exponentSign
      else if character.isDigit then .take exponent
      else .refuse
  | exponentSign => if character.isDigit then .take exponent else .refuse
  | exponent => if character.isDigit then .take exponent else .leave

/-- Whether a number may end there. -/
def isComplete : Stage → Bool
  | zero | whole | fraction | exponent => true
  | start | minus | point | mark | exponentSign => false

def scanner : Scanner Stage Unit where
  turn := turn
  finish stage := if stage.isComplete then .ok () else .error .invalidNumber

end Stage

/-- Checks the form of a number and nothing else. -/
def skipNumber (text : List Char) : Except Fault (List Char) :=
  (Stage.scanner.scan .start text).map Prod.snd

theorem skipNumber_eq_ok_iff {text rest : List Char} :
    skipNumber text = .ok rest ↔ Stage.scanner.scan .start text = .ok ((), rest) := by
  rw [skipNumber]
  cases Stage.scanner.scan .start text with
  | error fault => simp [Except.map]
  | ok taken => simp [Except.map, Prod.ext_iff]

theorem length_lt_of_skipNumber {text rest : List Char}
    (skip : skipNumber text = .ok rest) : rest.length < text.length :=
  Scanner.length_lt_of_scan rfl (skipNumber_eq_ok_iff.mp skip)

/-! ## The value of a number -/

def greatestSignificand : Nat :=
  UInt64.size - 1

/-- The greatest exponent that is told from all larger ones. -/
def greatestExponent : Nat :=
  Nat.pow 2 31 - 1

def digitValue (digit : Char) : Nat :=
  digit.toNat - '0'.toNat

/-- A number of which some characters have been read. -/
structure NumberDraft where
  stage : Stage
  negative : Bool
  significand : Nat
  /-- The power of ten of the last digit of the significand. -/
  power : Int
  /-- Whether a digit did not fit the significand. -/
  isFull : Bool
  negativeExponent : Bool
  exponent : Nat
  deriving Repr

namespace NumberDraft

def start : NumberDraft where
  stage := .start
  negative := false
  significand := 0
  power := 0
  isFull := false
  negativeExponent := false
  exponent := 0

/-- Adds a digit to the significand.  The power of ten changes by one amount if
the digit fits, and by another if it does not. -/
def addDigit (draft : NumberDraft) (fitting exceeding : Int) (digit : Char) : NumberDraft :=
  let longer := draft.significand * 10 + digitValue digit
  if draft.isFull || greatestSignificand < longer then
    { draft with isFull := true, power := draft.power + exceeding }
  else { draft with significand := longer, power := draft.power + fitting }

/-- Adds what a character that leads to the given stage means there. -/
def gather (draft : NumberDraft) (character : Char) : Stage → NumberDraft
  | .minus => { draft with negative := true }
  | .whole => draft.addDigit 0 1 character
  | .point => { draft with isFull := false }
  | .fraction => draft.addDigit (-1) 0 character
  | .exponentSign => { draft with negativeExponent := character = '-' }
  | .exponent => { draft with exponent := draft.exponent * 10 + digitValue character }
  | .start | .zero | .mark => draft

def take (draft : NumberDraft) (character : Char) (next : Stage) : NumberDraft :=
  { draft.gather character next with stage := next }

/-- Whether the exponent alone puts the number out of range.  No further
character is looked at then. -/
def isOutOfRange (draft : NumberDraft) : Bool :=
  greatestExponent < draft.exponent && draft.significand != 0 && !draft.negativeExponent

def turn (draft : NumberDraft) (character : Char) : Turn NumberDraft :=
  if draft.isOutOfRange then .leave
  else (draft.stage.turn character).map (draft.take character)

def isInteger (draft : NumberDraft) : Bool :=
  (draft.stage = .zero || draft.stage = .whole) && !draft.isFull

/-- The significand with the sign.  Negative zero is floating, and so is every
integer below the least one of 64 bits. -/
def integer (draft : NumberDraft) : Number :=
  if !draft.negative then .integer draft.significand
  else if draft.significand = 0 || Nat.pow 2 63 < draft.significand then
    .floating true ((Binary64.nearest? draft.significand 1).getD .zero)
  else .integer (-draft.significand)

/-- The floating number without its sign.  An exponent too large to tell apart
leaves zero. -/
def magnitude? (draft : NumberDraft) : Option Binary64 :=
  if greatestExponent < draft.exponent then some .zero
  else if draft.negativeExponent then
    Binary64.ofParts? draft.significand (draft.power - draft.exponent)
  else Binary64.ofParts? draft.significand (draft.power + draft.exponent)

def finish (draft : NumberDraft) : Except Cause Number :=
  if draft.isOutOfRange then .error .numberOutOfRange
  else if !draft.stage.isComplete then .error .endInValue
  else if draft.isInteger then .ok draft.integer
  else
    match draft.magnitude? with
    | some magnitude => .ok (.floating draft.negative magnitude)
    | none => .error .numberOutOfRange

def scanner : Scanner NumberDraft Number where
  turn := turn
  finish := finish

end NumberDraft

def readNumber (text : List Char) : Reading Number :=
  NumberDraft.scanner.scan .start text

theorem length_lt_of_readNumber {text rest : List Char} {result : Number}
    (read : readNumber text = .ok (result, rest)) : rest.length < text.length :=
  Scanner.length_lt_of_scan rfl read

end SemanticTokens.Json
