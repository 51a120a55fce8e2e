import SemanticTokens.Proofs.Json.Forms
import SemanticTokens.Proofs.Json.Grammar

/-!
# Numerals of the grammar

A numeral is scanned up to its end in front of anything that it cannot go on
with, whether it is skipped or read.  It is read as an integer from zero on only
if it is the decimal form of that integer: a fraction, an exponent or too many
digits make it a floating number, and a sign makes it negative or floating.
-/

namespace SemanticTokens.Json

open Text
open NumberDraft (natural turn_natural take_natural_whole
  scan_natural_of_stops)

/-! ## Stages of a numeral -/

section Stages

variable {before stage : Stage} {mark digit : Char}
variable {digits whole fraction exponent rest : List Char}

theorem Stage.turn_exponentMark
    (complete : stage.isComplete = true) (noExponent : stage ≠ .exponent)
    (among : mark ∈ ['e', 'E']) :
    stage.turn mark = .take .mark := by
  simp only [List.mem_cons, List.not_mem_nil, or_false] at among
  cases stage with
  | zero | whole | fraction =>
      rcases among with rfl | rfl <;> rfl
  | exponent =>
      exact (noExponent rfl).elim
  | start | minus | point | mark | exponentSign =>
      cases complete

theorem Stage.turn_mark_digit
    (isDigit : digit.isDigit = true) :
    turn .mark digit = .take .exponent := by
  have noPlus : digit ≠ '+' := ne_of_isDigit isDigit (by decide)
  have noMinus : digit ≠ '-' := ne_of_isDigit isDigit (by decide)
  rw [turn, decide_eq_false noPlus, decide_eq_false noMinus, Bool.or_false,
    if_neg Bool.false_ne_true, if_pos isDigit]

theorem Stage.turn_first_digit
    (fresh : stage = .start ∨ stage = .minus)
    (isDigit : digit.isDigit = true) (notZero : digit ≠ '0') :
    stage.turn digit = .take .whole := by
  have first : firstDigit digit = .take .whole := by
    rw [firstDigit, if_neg notZero, if_pos isDigit]
  rcases fresh with rfl | rfl
  · rw [turn, if_neg (ne_of_isDigit isDigit (by decide))]
    exact first
  · exact first

theorem scan_stage_of_stops
    (complete : stage.isComplete = true)
    (stops : Stops continuesNumber rest) :
    Stage.scanner.scan stage rest = .ok ((), rest) := by
  rw [Scanner.scan_of_stops stops (Stage.turn_eq_leave complete)]
  exact Scanner.finishAt_eq_ok_iff.mpr ⟨if_pos complete, rfl⟩

theorem scan_stage_digits_append
    (stage : Stage)
    (stays : ∀ {digit : Char}, digit.isDigit = true →
      stage.turn digit = .take stage)
    (areDigits : AreDigits digits) (rest : List Char) :
    Stage.scanner.scan stage (digits ++ rest) =
      Stage.scanner.scan stage rest := by
  induction digits with
  | nil =>
      rfl
  | cons digit digits inductionHypothesis =>
      have turn := stays (areDigits digit List.mem_cons_self)
      rw [List.cons_append, Scanner.scan_of_take turn]
      exact inductionHypothesis fun other member =>
        areDigits other (List.mem_cons_of_mem digit member)

theorem scan_stage_of_digits_append
    (before stage : Stage)
    (enters : ∀ {digit : Char}, digit.isDigit = true →
      before.turn digit = .take stage)
    (stays : ∀ {digit : Char}, digit.isDigit = true →
      stage.turn digit = .take stage)
    (nonempty : digits ≠ []) (areDigits : AreDigits digits)
    (rest : List Char) :
    Stage.scanner.scan before (digits ++ rest) =
      Stage.scanner.scan stage rest := by
  cases digits with
  | nil =>
      exact (nonempty rfl).elim
  | cons digit digits =>
      have turn := enters (areDigits digit List.mem_cons_self)
      rw [List.cons_append, Scanner.scan_of_take turn]
      exact scan_stage_digits_append stage stays (fun other member =>
        areDigits other (List.mem_cons_of_mem digit member)) rest

theorem scan_stage_exponent_append
    (complete : stage.isComplete = true) (noExponent : stage ≠ .exponent)
    (form : ExponentForm exponent) (stops : Stops continuesNumber rest) :
    Stage.scanner.scan stage (exponent ++ rest) = .ok ((), rest) := by
  cases form with
  | none =>
      exact scan_stage_of_stops complete stops
  | digits among sign nonempty areDigits =>
      have marked := Stage.turn_exponentMark complete noExponent among
      have ended : Stage.scanner.scan .exponent rest = .ok ((), rest) :=
        scan_stage_of_stops rfl stops
      rw [List.cons_append, Scanner.scan_of_take marked, List.append_assoc,
        ← ended]
      simp only [List.mem_cons, List.not_mem_nil, or_false] at sign
      rcases sign with rfl | rfl | rfl
      · exact
          scan_stage_of_digits_append .mark .exponent Stage.turn_mark_digit
            (fun isDigit => if_pos isDigit) nonempty areDigits rest
      -- Both signs lead to the same stage.
      all_goals
        exact
          scan_stage_of_digits_append .exponentSign .exponent
            (fun isDigit => if_pos isDigit) (fun isDigit => if_pos isDigit)
            nonempty areDigits rest

theorem scan_stage_fraction_append
    (isWhole : stage = .zero ∨ stage = .whole)
    (fractionForm : FractionForm fraction)
    (exponentForm : ExponentForm exponent)
    (stops : Stops continuesNumber rest) :
    Stage.scanner.scan stage (fraction ++ (exponent ++ rest)) =
      .ok ((), rest) := by
  cases fractionForm with
  | none =>
      have complete : stage.isComplete = true := by
        rcases isWhole with rfl | rfl <;> rfl
      have noExponent : stage ≠ .exponent := by
        rcases isWhole with rfl | rfl <;> decide
      exact scan_stage_exponent_append complete noExponent exponentForm stops
  | digits nonempty areDigits =>
      have point : stage.turn '.' = .take .point := by
        rcases isWhole with rfl | rfl <;> rfl
      rw [List.cons_append, Scanner.scan_of_take point,
        scan_stage_of_digits_append .point .fraction
          (fun isDigit => if_pos isDigit) (fun isDigit => if_pos isDigit)
          nonempty areDigits]
      have complete : Stage.fraction.isComplete = true := rfl
      exact scan_stage_exponent_append complete (by decide) exponentForm stops

theorem scan_stage_whole_append
    (fresh : stage = .start ∨ stage = .minus)
    (wholeForm : WholeForm whole)
    (fractionForm : FractionForm fraction)
    (exponentForm : ExponentForm exponent)
    (stops : Stops continuesNumber rest) :
    Stage.scanner.scan stage (whole ++ (fraction ++ (exponent ++ rest))) =
      .ok ((), rest) := by
  cases wholeForm with
  | zero =>
      have zero : stage.turn '0' = .take .zero := by
        rcases fresh with rfl | rfl <;> rfl
      rw [List.singleton_append, Scanner.scan_of_take zero]
      exact
        scan_stage_fraction_append (.inl rfl) fractionForm exponentForm stops
  | digits isDigit notZero areDigits =>
      rw [List.cons_append,
        Scanner.scan_of_take (Stage.turn_first_digit fresh isDigit notZero),
        scan_stage_digits_append .whole (fun isDigit => if_pos isDigit)
          areDigits]
      exact
        scan_stage_fraction_append (.inr rfl) fractionForm exponentForm stops

theorem scan_stage_numeral_append
    {numeral : List Char} (form : NumeralForm numeral)
    (stops : Stops continuesNumber rest) :
    Stage.scanner.scan .start (numeral ++ rest) = .ok ((), rest) := by
  obtain @⟨sign, whole, fraction, exponent, among, wholeForm, fractionForm,
    exponentForm⟩ := form
  simp only [List.append_assoc]
  simp only [List.mem_cons, List.not_mem_nil, or_false] at among
  rcases among with rfl | rfl
  · exact
      scan_stage_whole_append (.inl rfl) wholeForm fractionForm exponentForm
        stops
  · exact
      scan_stage_whole_append (.inr rfl) wholeForm fractionForm exponentForm
        stops

theorem skipNumber_form_append
    {numeral : List Char} (form : NumeralForm numeral)
    (stops : Stops continuesNumber rest) :
    skipNumber (numeral ++ rest) = .ok rest :=
  skipNumber_eq_ok_iff.mpr (scan_stage_numeral_append form stops)

/-- A natural number begins with a digit. -/
theorem WholeForm.exists_cons
    (form : WholeForm whole) :
    ∃ first others, whole = first :: others ∧ first.isDigit = true := by
  cases form with
  | zero =>
      exact ⟨'0', [], rfl, by decide⟩
  | digits isDigit _ _ =>
      exact ⟨_, _, rfl, isDigit⟩

end Stages

/-! ## Numerals that are read as integers -/

/-- Digits behind a positive number are the last digits of the longer number. -/
theorem toDigits_ofDigitChars_ten
    {digits : List Char} (areDigits : AreDigits digits)
    {significand : Nat} (positive : 0 < significand) :
    Nat.toDigits 10 (Nat.ofDigitChars 10 digits significand) =
      Nat.toDigits 10 significand ++ digits := by
  induction digits generalizing significand with
  | nil =>
      rw [Nat.ofDigitChars_nil, List.append_nil]
  | cons digit digits inductionHypothesis =>
      obtain ⟨sameDigit, small⟩ :=
        digitChar_digitValue (areDigits digit List.mem_cons_self)
      have later : AreDigits digits := fun other member =>
        areDigits other (List.mem_cons_of_mem digit member)
      change digit.toNat - '0'.toNat < 10 at small
      rw [Nat.ofDigitChars_cons, inductionHypothesis later (by omega),
        Nat.toDigits_eq_if (by decide), if_neg (by omega)]
      have front :
          (10 * significand + (digit.toNat - '0'.toNat)) / 10 =
            significand := by
        omega
      have last :
          (10 * significand + (digit.toNat - '0'.toNat)) % 10 =
            digitValue digit := by
        rw [digitValue]
        omega
      rw [front, last, sameDigit, List.append_assoc, List.singleton_append]

section Integers

variable {whole fraction exponent rest after : List Char}
variable {stage : Stage} {significand : Nat} {value : Int}

theorem isFull_take_natural_whole
    {digit : Char}
    (exceeds : greatestSignificand < significand * 10 + digitValue digit) :
    ((natural stage significand).take digit .whole).isFull = true := by
  have full :
      ((natural stage significand).isFull ||
        decide (greatestSignificand < significand * 10 + digitValue digit)) =
          true := by
    rw [Bool.or_eq_true, decide_eq_true_eq]
    exact .inr exceeds
  rw [NumberDraft.take, NumberDraft.gather, NumberDraft.addDigit]
  exact congrArg NumberDraft.isFull (if_pos full)

/-- Behind the whole part, a point or an exponent mark makes it floating. -/
theorem of_scan_natural_eq_integer
    (isWhole : stage = .zero ∨ stage = .whole)
    (fractionForm : FractionForm fraction)
    (exponentForm : ExponentForm exponent)
    (stops : Stops continuesNumber rest)
    (read :
      NumberDraft.scanner.scan (natural stage significand)
          (fraction ++ (exponent ++ rest)) =
        .ok (.integer value, after)) :
    fraction = [] ∧ exponent = [] ∧ value = significand := by
  have floating {next : Stage} {character : Char} {text : List Char}
      (past : next.isPastWhole = true)
      (turn : stage.turn character = .take next)
      (taken :
        NumberDraft.scanner.scan (natural stage significand)
            (character :: text) =
          .ok (.integer value, after)) :
      False := by
    rw [Scanner.scan_of_take (turn_natural turn)] at taken
    exact NumberDraft.Floats.scan_ne_integer (.inl past) value taken
  cases fractionForm with
  | none =>
      cases exponentForm with
      | none =>
          rw [List.nil_append, List.nil_append,
            scan_natural_of_stops isWhole stops] at read
          cases read
          exact ⟨rfl, rfl, rfl⟩
      | @digits mark _ _ among _ _ _ =>
          have marked : stage.turn mark = .take .mark := by
            rcases isWhole with rfl | rfl
            · exact Stage.turn_exponentMark rfl (by decide) among
            · exact Stage.turn_exponentMark rfl (by decide) among
          exact (floating rfl marked read).elim
  | digits _ _ =>
      have point : stage.turn '.' = .take .point := by
        rcases isWhole with rfl | rfl <;> rfl
      exact (floating rfl point read).elim

theorem of_scan_natural_digits_eq_integer
    {digits : List Char} (areDigits : AreDigits digits)
    (fractionForm : FractionForm fraction)
    (exponentForm : ExponentForm exponent)
    (stops : Stops continuesNumber rest)
    (read :
      NumberDraft.scanner.scan (natural .whole significand)
          (digits ++ (fraction ++ (exponent ++ rest))) =
        .ok (.integer value, after)) :
    fraction = [] ∧ exponent = [] ∧
      value = Nat.ofDigitChars 10 digits significand := by
  induction digits generalizing significand with
  | nil =>
      exact
        of_scan_natural_eq_integer (.inr rfl) fractionForm exponentForm stops
          read
  | cons digit digits inductionHypothesis =>
      have turn : Stage.turn .whole digit = .take .whole :=
        if_pos (areDigits digit List.mem_cons_self)
      rw [List.cons_append, Scanner.scan_of_take (turn_natural turn)] at read
      by_cases exceeds :
          greatestSignificand < significand * 10 + digitValue digit
      · have full :
            ((natural .whole significand).take digit .whole).isFull = true :=
          isFull_take_natural_whole exceeds
        exact
          (NumberDraft.Floats.scan_ne_integer (.inr full) value read).elim
      · rw [take_natural_whole (Nat.not_lt.mp exceeds)] at read
        have later : AreDigits digits := fun other member =>
          areDigits other (List.mem_cons_of_mem digit member)
        obtain ⟨noFraction, noExponent, amount⟩ :=
          inductionHypothesis later read
        refine ⟨noFraction, noExponent, ?_⟩
        rw [amount, Nat.ofDigitChars_cons, digitValue, Nat.mul_comm]

theorem of_readNumber_whole_eq_integer
    (wholeForm : WholeForm whole)
    (fractionForm : FractionForm fraction)
    (exponentForm : ExponentForm exponent)
    (stops : Stops continuesNumber rest)
    (read :
      readNumber (whole ++ (fraction ++ (exponent ++ rest))) =
        .ok (.integer value, after)) :
    whole ++ (fraction ++ exponent) = Nat.toDigits 10 value.toNat := by
  cases wholeForm with
  | zero =>
      rw [List.singleton_append, readNumber_zero_cons] at read
      obtain ⟨rfl, rfl, rfl⟩ :=
        of_scan_natural_eq_integer (.inl rfl) fractionForm exponentForm stops
          read
      rfl
  | @digits first others isDigit notZero areDigits =>
      rw [List.cons_append, readNumber_digit_cons isDigit notZero] at read
      obtain ⟨rfl, rfl, rfl⟩ :=
        of_scan_natural_digits_eq_integer areDigits fractionForm exponentForm
          stops read
      obtain ⟨sameDigit, small⟩ := digitChar_digitValue isDigit
      have positive : 0 < digitValue first := by
        apply Nat.pos_of_ne_zero
        intro isZero
        rw [isZero] at sameDigit
        exact notZero sameDigit.symm
      rw [Int.toNat_natCast, toDigits_ofDigitChars_ten areDigits positive,
        Nat.toDigits_of_lt_base small, sameDigit, List.append_nil,
        List.append_nil, List.singleton_append]

/-- A numeral read as an integer from zero on is the decimal form of it. -/
theorem of_readNumber_eq_integer
    {numeral : List Char} (form : NumeralForm numeral)
    (stops : Stops continuesNumber rest)
    (read : readNumber (numeral ++ rest) = .ok (.integer value, after))
    (natural : 0 ≤ value) :
    numeral = Nat.toDigits 10 value.toNat ∧ after = rest := by
  have sameRest : after = rest := by
    have skipped := NumberDraft.scan_stage_of_scan read
    change Stage.scanner.scan .start (numeral ++ rest) = _ at skipped
    rw [scan_stage_numeral_append form stops] at skipped
    cases skipped
    rfl
  refine ⟨?_, sameRest⟩
  obtain @⟨sign, whole, fraction, exponent, among, wholeForm, fractionForm,
    exponentForm⟩ := form
  simp only [List.append_assoc] at read
  simp only [List.mem_cons, List.not_mem_nil, or_false] at among
  rcases among with rfl | rfl
  · rw [List.nil_append] at read ⊢
    exact
      of_readNumber_whole_eq_integer wholeForm fractionForm exponentForm stops
        read
  · have minus : Stage.turn .start '-' = .take .minus := rfl
    change
      NumberDraft.scanner.scan (NumberDraft.natural .start 0) ('-' :: _) = _
        at read
    rw [Scanner.scan_of_take (turn_natural minus)] at read
    have negative := NumberDraft.integer_neg_of_scan rfl read
    exact absurd natural (Int.not_le.mpr negative)

end Integers

end SemanticTokens.Json
