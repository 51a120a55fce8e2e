import SemanticTokens.Proofs.Json.Forms
import SemanticTokens.Proofs.Json.Stability.Tokens

/-!
# Values do not depend on what follows

A reader is stable if it takes the same value off a text when more is put
behind the text, as long as it leaves something of the text itself.  All
readers are stable.  Where a value is followed by a bracket or a comma,
something is always left, so that a list needs no condition: it ends with its
own bracket.
-/

namespace SemanticTokens.Json

/-- Whether a reader takes the same off a text with more behind it, as long as
it leaves something. -/
def Reader.Stable {α : Type} (reader : Reader α) : Prop :=
  ∀ ⦃text rest : List Char⦄ ⦃value : α⦄,
    reader.read text = .ok (value, rest) → rest ≠ [] →
      ∀ more, reader.read (text ++ more) = .ok (value, rest ++ more)

/-! ## Skipped values -/

theorem ne_nil_of_length_le
    {text rest : List Char} (remains : rest ≠ [])
    (shorter : rest.length ≤ text.length) :
    text ≠ [] := by
  rintro rfl
  exact remains (List.eq_nil_of_length_eq_zero (Nat.le_zero.mp shorter))

section Skipping

variable {text rest : List Char} (more : List Char)

theorem skipScalar_append
    (skip : skipScalar text = .ok rest) (remains : rest ≠ []) :
    skipScalar (text ++ more) = .ok (rest ++ more) := by
  unfold skipScalar at skip
  split at skip
  · cases skip
  · exact readLetters_append skip more
  · exact readLetters_append skip more
  · exact readLetters_append skip more
  · exact skipString_append more skip
  · rename_i noNull noTrue noFalse noQuote
    split at skip
    · rename_i number
      have skipped := skipNumber_append remains more skip
      rw [List.cons_append] at skipped ⊢
      rw [skipScalar]
      · rw [if_pos number, skipped]
      all_goals assumption
    · cases skip

theorem skipColon_append
    (skip : skipColon text = .ok rest) :
    skipColon (text ++ more) = .ok (rest ++ more) := by
  unfold skipColon at skip
  split at skip
  · cases skip
  · rename_i heading
    cases skip
    rw [skipColon, skipSpaces_append_of_eq_cons heading]
    rfl
  · cases skip

theorem skipKey_append
    (skip : skipKey text = .ok rest) :
    skipKey (text ++ more) = .ok (rest ++ more) := by
  unfold skipKey at skip
  split at skip
  · cases skip
  · rename_i heading
    obtain ⟨afterKey, key, colon⟩ := exists_of_bind_ok skip
    rw [skipKey, skipSpaces_append_of_eq_cons heading]
    change skipString _ >>= skipColon = _
    rw [skipString_append more key]
    exact skipColon_append more colon
  · cases skip

theorem skipToValue_append
    {bracket : Bracket} (skip : skipToValue bracket text = .ok rest) :
    skipToValue bracket (text ++ more) = .ok (rest ++ more) := by
  cases bracket with
  | list =>
      cases skip
      rfl
  | object =>
      exact skipKey_append more skip

namespace SkipState

def append (state : SkipState) (more : List Char) : SkipState :=
  { state with rest := state.rest ++ more }

variable {outer : List Bracket} {bracket : Bracket} {next : SkipState}

theorem enter_append
    (step : enter outer bracket text = .ok next) :
    enter outer bracket (text ++ more) = .ok (next.append more) := by
  unfold enter at step
  split at step
  · cases step
  · rename_i character tail heading
    rw [enter, skipSpaces_append_of_eq_cons heading]
    dsimp only
    split at step
    · rename_i closes
      cases step
      rw [if_pos closes]
      rfl
    · rename_i noClosing
      obtain ⟨start, toValue, result⟩ := exists_of_bind_ok step
      cases result
      rw [if_neg noClosing, ← List.cons_append,
        skipToValue_append more toValue]
      rfl

theorem continueBracket_append
    (step : continueBracket bracket outer text = .ok next) :
    continueBracket bracket outer (text ++ more) = .ok (next.append more) := by
  unfold continueBracket at step
  split at step
  · cases step
  · rename_i character tail heading
    rw [continueBracket, skipSpaces_append_of_eq_cons heading]
    dsimp only
    split at step
    · rename_i closes
      cases step
      rw [if_pos closes]
      rfl
    · rename_i noClosing
      rw [if_neg noClosing]
      split at step
      · rename_i comma
        obtain ⟨start, toValue, result⟩ := exists_of_bind_ok step
        cases result
        rw [if_pos comma, skipToValue_append more toValue]
        rfl
      · cases step

theorem beginValue_append
    (step : beginValue outer text = .ok next) (remains : next.rest ≠ []) :
    beginValue outer (text ++ more) = .ok (next.append more) := by
  unfold beginValue at step
  split at step
  · rename_i heading
    rw [beginValue, skipSpaces_append_of_eq_cons heading]
    exact enter_append more step
  · rename_i heading
    rw [beginValue, skipSpaces_append_of_eq_cons heading]
    exact enter_append more step
  · rename_i noList noObject
    -- A scalar that leaves something does not begin in the addition.
    obtain ⟨rest, scalar, result⟩ := exists_of_bind_ok step
    cases result
    have nonempty : skipSpaces text ≠ [] :=
      ne_nil_of_length_le remains
        (Nat.le_of_lt (length_lt_of_skipScalar scalar))
    obtain ⟨first, others, heading⟩ := List.exists_cons_of_ne_nil nonempty
    have skipped := skipScalar_append more scalar remains
    rw [heading] at noList noObject skipped
    rw [beginValue, skipSpaces_append nonempty, heading]
    rw [List.cons_append] at skipped ⊢
    split
    · rename_i bracket
      obtain ⟨rfl, -⟩ := List.cons.inj bracket
      exact (noList others rfl).elim
    · rename_i bracket
      obtain ⟨rfl, -⟩ := List.cons.inj bracket
      exact (noObject others rfl).elim
    · rw [skipped]
      rfl

theorem finish_append
    {stage : SkipStage} {brackets : List Bracket}
    (skip : finish stage brackets text = .ok rest) (remains : rest ≠ []) :
    finish stage brackets (text ++ more) = .ok (rest ++ more) := by
  fun_induction finish stage brackets text with
  | case1 => cases skip
  | case2 brackets text next step inductionHypothesis =>
      have after : next.rest ≠ [] :=
        ne_nil_of_length_le remains (length_le_of_finish skip)
      have further := inductionHypothesis skip
      rw [finish, beginValue_append more step after]
      exact further
  | case3 text =>
      cases skip
      rw [finish]
  | case4 => cases skip
  | case5 text bracket outer next step inductionHypothesis =>
      have further := inductionHypothesis skip
      rw [finish, continueBracket_append more step]
      exact further

end SkipState

theorem skipValue_append
    (skip : skipValue text = .ok rest) (remains : rest ≠ []) :
    skipValue (text ++ more) = .ok (rest ++ more) :=
  SkipState.finish_append more skip remains

end Skipping

/-! ## Elements of lists -/

section Lists

variable {text rest : List Char} (more : List Char)

theorem nextElement_append_of_closed
    {first : Bool} (next : nextElement first text = .ok (.closed rest)) :
    nextElement first (text ++ more) = .ok (.closed (rest ++ more)) := by
  unfold nextElement at next
  split at next
  · cases next
  · rename_i heading
    cases next
    rw [nextElement, skipSpaces_append_of_eq_cons heading]
    rfl
  · split at next
    · cases next
    · split at next
      · split at next <;> cases next
      · cases next

theorem nextElement_append_of_element
    {first : Bool} (next : nextElement first text = .ok (.element rest)) :
    nextElement first (text ++ more) = .ok (.element (rest ++ more)) := by
  unfold nextElement at next
  split at next
  · cases next
  · cases next
  · rename_i character tail noBracket heading
    rw [nextElement, skipSpaces_append_of_eq_cons heading]
    split
    · rename_i bracket
      cases bracket
    · rename_i bracket
      obtain ⟨rfl, -⟩ := List.cons.inj bracket
      exact (noBracket rfl).elim
    · rename_i whole
      obtain ⟨rfl, rfl⟩ := List.cons.inj whole
      split at next
      · rename_i isFirst
        cases next
        rw [if_pos isFirst]
        rfl
      · rename_i notFirst
        rw [if_neg notFirst]
        split at next
        · rename_i comma
          rw [if_pos comma]
          split at next
          · cases next
          · cases next
          · rename_i noEnd noClosing
            cases next
            obtain ⟨mark, others, begun⟩ := List.exists_cons_of_ne_nil noEnd
            rw [skipSpaces_append noEnd]
            split
            · rename_i ended
              rw [begun] at ended
              cases ended
            · rename_i closing
              rw [begun, List.cons_append] at closing
              obtain ⟨rfl, -⟩ := List.cons.inj closing
              exact (noClosing others begun).elim
            · rfl
        · cases next

theorem closeList_append
    (close : closeList text = .ok rest) :
    closeList (text ++ more) = .ok (rest ++ more) := by
  unfold closeList at close
  split at close
  · cases close
  · rename_i heading
    cases close
    rw [closeList, skipSpaces_append_of_eq_cons heading]
    rfl
  · split at close <;> cases close
  · cases close

variable {α : Type} {item : Reader α}

theorem readElements_append
    (stable : item.Stable) {reversed values : List α} {first : Bool}
    (read : readElements item reversed first text = .ok (values, rest)) :
    readElements item reversed first (text ++ more) =
      .ok (values, rest ++ more) := by
  fun_induction readElements item reversed first text with
  | case1 => cases read
  | case2 reversed first text tail next =>
      cases read
      exact readElements_of_closed (nextElement_append_of_closed more next)
  | case3 => cases read
  | case4 reversed first text start next value tail taken
      inductionHypothesis =>
      have after : tail ≠ [] :=
        List.ne_nil_of_length_pos
          (Nat.lt_of_le_of_lt (Nat.zero_le _) (length_lt_of_readElements read))
      rw [readElements_of_element (nextElement_append_of_element more next)
          (stable taken after more),
        inductionHypothesis read]

theorem readList_append
    (stable : item.Stable) {values : List α}
    (read : readList item text = .ok (values, rest)) :
    readList item (text ++ more) = .ok (values, rest ++ more) := by
  unfold readList at read
  split at read
  · rename_i heading
    rw [readList, skipSpaces_append_of_eq_cons heading]
    exact readElements_append more stable read
  · cases read

end Lists

/-! ## Readers -/

namespace Reader

theorem Stable.map
    {α β : Type} {reader : Reader α} (stable : reader.Stable)
    (change : α → β) :
    (reader.map change).Stable := by
  intro text rest value read remains more
  change (reader.read text).map _ = _ at read
  change (reader.read (text ++ more)).map _ = _
  cases inner : reader.read text with
  | error fault =>
      rw [inner] at read
      cases read
  | ok taken =>
      rw [inner] at read
      cases read
      rw [stable inner remains more]
      rfl

theorem Stable.list
    {α : Type} {item : Reader α} (stable : item.Stable) :
    (Reader.list item).Stable := by
  intro text rest values read _ more
  exact readList_append more stable read

theorem stable_text : text.Stable := by
  intro start rest value read remains more
  change readText start = _ at read
  change readText (start ++ more) = _
  unfold readText at read
  split at read
  · rename_i tail heading
    rw [readText, skipSpaces_append_of_eq_cons heading]
    change (readString [] (tail ++ more)).map _ = _
    cases characters : readString [] tail with
    | error fault =>
        rw [characters] at read
        cases read
    | ok taken =>
        rw [characters] at read
        cases read
        rw [readString_append more characters]
        rfl
  · cases read

theorem stable_boolean : boolean.Stable := by
  intro start rest value read remains more
  change readBoolean start = _ at read
  change readBoolean (start ++ more) = _
  unfold readBoolean at read
  split at read
  · rename_i tail heading
    obtain ⟨after, letters, result⟩ := exists_of_bind_ok read
    cases result
    rw [readBoolean, skipSpaces_append_of_eq_cons heading]
    change readLetters _ (tail ++ more) >>= _ = _
    rw [readLetters_append letters more]
    rfl
  · rename_i tail heading
    obtain ⟨after, letters, result⟩ := exists_of_bind_ok read
    cases result
    rw [readBoolean, skipSpaces_append_of_eq_cons heading]
    change readLetters _ (tail ++ more) >>= _ = _
    rw [readLetters_append letters more]
    rfl
  · cases read

theorem wordOfNumber_of_rest
    {number : Number} {rest after : List Char} {word : UInt32}
    (word_of : wordOfNumber rest number = .ok (word, after))
    (other : List Char) :
    wordOfNumber other number = .ok (word, other) := by
  cases number with
  | integer value =>
      rw [wordOfNumber] at word_of ⊢
      split at word_of
      · rename_i fits
        cases word_of
        rw [if_pos fits]
      · cases word_of
  | floating negative magnitude =>
      cases word_of

theorem stable_optionalWord : optionalWord.Stable := by
  intro start rest value read remains more
  change readOptionalWord start = _ at read
  change readOptionalWord (start ++ more) = _
  unfold readOptionalWord at read
  split at read
  · cases read
  · rename_i tail heading
    obtain ⟨after, letters, result⟩ := exists_of_bind_ok read
    cases result
    rw [readOptionalWord, skipSpaces_append_of_eq_cons heading]
    change readLetters _ (tail ++ more) >>= _ = _
    rw [readLetters_append letters more]
    rfl
  · rename_i character tail noNull heading
    split at read
    · rename_i begins
      obtain ⟨⟨number, afterNumber⟩, numberRead, wordRead⟩ :=
        exists_of_bind_ok read
      obtain ⟨⟨word, afterWord⟩, wordOf, result⟩ := exists_of_bind_ok wordRead
      obtain rfl := rest_of_wordOfNumber wordOf
      cases result
      have further := readNumber_append remains more numberRead
      rw [readOptionalWord, skipSpaces_append_of_eq_cons heading]
      rw [List.cons_append] at further
      split
      · rename_i ended
        cases ended
      · rename_i null
        obtain ⟨rfl, -⟩ := List.cons.inj null
        exact (noNull rfl).elim
      · rename_i whole
        obtain ⟨rfl, rfl⟩ := List.cons.inj whole
        rw [if_pos begins, further]
        change Except.bind (wordOfNumber _ number) _ = _
        rw [wordOfNumber_of_rest wordOf]
        rfl
    · cases read

end Reader

end SemanticTokens.Json
