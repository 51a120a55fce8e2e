import SemanticTokens.Json.Value
import SemanticTokens.Proofs.Json.Scanners
import SemanticTokens.Proofs.Text.Fields

/-!
# Reading decimal numbers

A natural number in decimal, with nothing behind it that a number could go on
with, is read as the integer that it is, as long as it fits the significand.
Its digits are gathered one by one, and it begins with a zero only if it is
zero.
-/

namespace SemanticTokens.Json

open Text

def continuesNumber (character : Char) : Bool :=
  character.isDigit || character == '.' || isExponentMark character

/-- Neither a digit nor a point nor an exponent begins what a number cannot go
on with. -/
theorem noDigit_of_not_continues
    {character : Char} (ends : continuesNumber character = false) :
    character.isDigit = false ∧ character ≠ '.' ∧
      isExponentMark character = false := by
  rw [continuesNumber, Bool.or_eq_false_iff, Bool.or_eq_false_iff,
    beq_eq_false_iff_ne] at ends
  exact ⟨ends.1.1, ends.1.2, ends.2⟩

theorem digitChar_digitValue
    {digit : Char} (isDigit : digit.isDigit = true) :
    Nat.digitChar (digitValue digit) = digit ∧ digitValue digit < 10 := by
  simp only [Char.isDigit, Bool.and_eq_true, decide_eq_true_eq,
    UInt32.le_iff_toNat_le, ge_iff_le] at isDigit
  have least : '0'.toNat = 48 := rfl
  have bounds : 48 ≤ digit.toNat ∧ digit.toNat ≤ 57 := isDigit
  have small : digitValue digit < 10 := by
    rw [digitValue, least]
    omega
  refine ⟨Char.toNat_inj.mp ?_, small⟩
  rw [Nat.toNat_digitChar_of_lt_ten small, digitValue, least]
  omega

theorem le_ofDigitChars_ten
    (digits : List Char) (significand : Nat) :
    significand ≤ Nat.ofDigitChars 10 digits significand := by
  induction digits generalizing significand with
  | nil =>
      exact Nat.le_refl significand
  | cons digit rest inductionHypothesis =>
      rw [Nat.ofDigitChars_cons]
      have longer :=
        inductionHypothesis (10 * significand + (digit.toNat - '0'.toNat))
      omega

/-- A decimal number other than zero has no leading zero. -/
theorem head?_toDigits_ten_ne_zero
    {number : Nat} (positive : 0 < number) :
    (Nat.toDigits 10 number).head? ≠ some '0' := by
  induction number using Nat.strongRecOn with
  | ind number inductionHypothesis =>
      rw [Nat.toDigits_eq_if (by decide)]
      by_cases single : number < 10
      · rw [if_pos single, List.head?_cons, ne_eq, Option.some.injEq,
          Nat.digitChar_eq_zero]
        exact Nat.ne_of_gt positive
      · have leading :=
          inductionHypothesis (number / 10) (by omega) (by omega)
        obtain ⟨first, others, digits⟩ :=
          List.exists_cons_of_ne_nil
            (Nat.toDigits_ne_nil (n := number / 10) (b := 10))
        rw [if_neg single, digits, List.cons_append, List.head?_cons]
        rwa [digits, List.head?_cons] at leading

/-! ## Reading digit by digit -/

/-- A number that may end does so in front of what it cannot go on with. -/
theorem Stage.turn_eq_leave
    {stage : Stage} (complete : stage.isComplete = true)
    {character : Char} (ends : continuesNumber character = false) :
    stage.turn character = .leave := by
  obtain ⟨noDigit, noPoint, noMark⟩ := noDigit_of_not_continues ends
  cases stage with
  | zero | whole | fraction | exponent =>
      simp only [turn, afterWhole, afterFraction, noDigit, noPoint, noMark,
        Bool.false_eq_true, if_false]
  | start | minus | point | mark | exponentSign =>
      cases complete

theorem Scanner.scan_of_stops
    {σ α : Type} {scanner : Scanner σ α} {state : σ} {rest : List Char}
    (stops : Stops continuesNumber rest)
    (leaves : ∀ {character : Char}, continuesNumber character = false →
      scanner.turn state character = .leave) :
    scanner.scan state rest = scanner.finishAt state rest := by
  cases rest with
  | nil =>
      rfl
  | cons character rest =>
      have ends := stops character (by rw [List.head?_cons]; rfl)
      exact scan_of_leave (leaves ends) rest

namespace NumberDraft

/-- A draft without sign, fraction and exponent. -/
def natural (stage : Stage) (significand : Nat) : NumberDraft :=
  { start with stage, significand }

section Natural

variable {stage next : Stage} {significand : Nat} {digit : Char}

theorem turn_natural
    (turn : stage.turn digit = .take next) :
    (natural stage significand).turn digit =
      .take ((natural stage significand).take digit next) := by
  have inRange : (natural stage significand).isOutOfRange = false := by
    change (decide (greatestExponent < 0) && significand != 0 && true) = false
    rw [decide_eq_false (Nat.not_lt_zero greatestExponent), Bool.false_and,
      Bool.false_and]
  exact turn_of_take inRange turn

theorem take_natural_whole
    (fits : significand * 10 + digitValue digit ≤ greatestSignificand) :
    (natural stage significand).take digit .whole =
      natural .whole (significand * 10 + digitValue digit) := by
  have notFull :
      ¬ ((natural stage significand).isFull ||
        decide (greatestSignificand < significand * 10 + digitValue digit)) =
          true := by
    change ¬ (false || _) = true
    rw [Bool.false_or, decide_eq_true_eq]
    exact Nat.not_lt.mpr fits
  have added :
      (natural stage significand).addDigit 0 1 digit =
        natural stage (significand * 10 + digitValue digit) :=
    if_neg notFull
  rw [take, gather, added]
  rfl

theorem scan_natural_of_stops
    (integer : stage = .zero ∨ stage = .whole) {rest : List Char}
    (stops : Stops continuesNumber rest) :
    scanner.scan (natural stage significand) rest =
      .ok (.integer significand, rest) := by
  have complete : stage.isComplete = true := by
    rcases integer with rfl | rfl <;> rfl
  have leaves {character : Char} (ends : continuesNumber character = false) :
      (natural stage significand).turn character = .leave := by
    rw [turn]
    split
    · rfl
    · change (stage.turn character).map _ = _
      rw [Stage.turn_eq_leave complete ends, Turn.map]
  rw [Scanner.scan_of_stops stops leaves]
  rcases integer with rfl | rfl <;> rfl

end Natural

end NumberDraft

open NumberDraft (natural turn_natural take_natural_whole
  scan_natural_of_stops)

theorem scan_natural_digits_append
    {digits rest : List Char} {significand : Nat}
    (areDigits : ∀ digit ∈ digits, digit.isDigit = true)
    (fits : Nat.ofDigitChars 10 digits significand ≤ greatestSignificand)
    (stops : Stops continuesNumber rest) :
    NumberDraft.scanner.scan (natural .whole significand) (digits ++ rest) =
      .ok (.integer (Nat.ofDigitChars 10 digits significand), rest) := by
  induction digits generalizing significand with
  | nil =>
      exact scan_natural_of_stops (.inr rfl) stops
  | cons digit digits inductionHypothesis =>
      rw [Nat.ofDigitChars_cons] at fits ⊢
      have sameValue :
          significand * 10 + digitValue digit =
            10 * significand + (digit.toNat - '0'.toNat) := by
        rw [digitValue, Nat.mul_comm]
      have longerFits :
          significand * 10 + digitValue digit ≤ greatestSignificand := by
        rw [sameValue]
        exact Nat.le_trans (le_ofDigitChars_ten digits _) fits
      have turn : Stage.turn .whole digit = .take .whole :=
        if_pos (areDigits digit List.mem_cons_self)
      rw [List.cons_append, Scanner.scan_of_take (turn_natural turn),
        take_natural_whole longerFits, sameValue]
      exact
        inductionHypothesis
          (fun other member =>
            areDigits other (List.mem_cons_of_mem digit member))
          fits

/-- The first digit of a number decides whether others may follow. -/
theorem readNumber_zero_cons
    (text : List Char) :
    readNumber ('0' :: text) =
      NumberDraft.scanner.scan (natural .zero 0) text := by
  have turn : Stage.turn .start '0' = .take .zero := rfl
  change NumberDraft.scanner.scan (natural .start 0) ('0' :: text) = _
  rw [Scanner.scan_of_take (turn_natural turn)]
  rfl

theorem readNumber_digit_cons
    {first : Char} (isDigit : first.isDigit = true) (notZero : first ≠ '0')
    (text : List Char) :
    readNumber (first :: text) =
      NumberDraft.scanner.scan (natural .whole (digitValue first)) text := by
  have notMinus : first ≠ '-' := by
    intro isMinus
    rw [isMinus] at isDigit
    cases isDigit
  have turn : Stage.turn .start first = .take .whole := by
    rw [Stage.turn, if_neg notMinus, Stage.firstDigit, if_neg notZero,
      if_pos isDigit]
  have small : 0 * 10 + digitValue first ≤ greatestSignificand := by
    have digit := (digitChar_digitValue isDigit).2
    have large : 10 ≤ greatestSignificand := by
      decide
    omega
  rw [readNumber]
  change NumberDraft.scanner.scan (natural .start 0) (first :: text) = _
  rw [Scanner.scan_of_take (turn_natural turn), take_natural_whole small,
    Nat.zero_mul, Nat.zero_add]

theorem readNumber_toDigits_append
    {number : Nat} {rest : List Char}
    (fits : number ≤ greatestSignificand)
    (stops : Stops continuesNumber rest) :
    readNumber (Nat.toDigits 10 number ++ rest) =
      .ok (.integer number, rest) := by
  rcases Nat.eq_zero_or_pos number with rfl | positive
  · rw [Nat.toDigits_zero, List.singleton_append, readNumber_zero_cons]
    exact scan_natural_of_stops (.inl rfl) stops
  · cases digits : Nat.toDigits 10 number with
    | nil =>
        exact (Nat.toDigits_ne_nil digits).elim
    | cons first others =>
        have notZero := head?_toDigits_ten_ne_zero positive
        rw [digits, List.head?_cons, ne_eq, Option.some.injEq] at notZero
        have areDigits :
            ∀ digit ∈ first :: others, digit.isDigit = true := by
          rw [← digits]
          exact fun _ => isDigit_of_mem_toDigits_ten
        have value :
            Nat.ofDigitChars 10 others (digitValue first) = number := by
          have whole : Nat.ofDigitChars 10 (first :: others) 0 = number := by
            rw [← digits, Nat.ofDigitChars_ten_toDigits]
          rwa [Nat.ofDigitChars_cons, Nat.mul_zero, Nat.zero_add] at whole
        rw [List.cons_append,
          readNumber_digit_cons (areDigits first List.mem_cons_self) notZero]
        rw [← value] at fits ⊢
        exact
          scan_natural_digits_append
            (fun other member =>
              areDigits other (List.mem_cons_of_mem first member))
            fits stops

/-! ## Words -/

theorem toNat_le_greatestSignificand
    (word : UInt32) :
    word.toNat ≤ greatestSignificand := by
  have bound := word.toNat_lt_size
  have smaller : UInt32.size ≤ greatestSignificand := by
    decide
  omega

theorem wordOfNumber_toNat
    (word : UInt32) (rest : List Char) :
    wordOfNumber rest (.integer word.toNat) = .ok (word, rest) := by
  have isWord :
      0 ≤ (word.toNat : Int) ∧
        (word.toNat : Int).toNat < UInt32.size :=
    ⟨Int.natCast_nonneg word.toNat, word.toNat_lt_size⟩
  rw [wordOfNumber, if_pos isWord, Int.toNat_natCast, UInt32.ofNat_toNat]

end SemanticTokens.Json
