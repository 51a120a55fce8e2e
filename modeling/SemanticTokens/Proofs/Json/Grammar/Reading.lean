import Mathlib.Data.List.Forall2
import SemanticTokens.Proofs.Json.Grammar.Skipping

/-!
# Reading values of the grammar

Which texts of the grammar a reader accepts, and what it reads them as.  A
reader of text accepts the strings, a reader of truth values the truth values,
a reader of words `null` and the decimal forms of words, and a reader of lists
the lists whose elements are all accepted.  Neither white space in front nor
what stands behind makes a difference.
-/

namespace SemanticTokens.Json

open Text

namespace Reader

/-- Whether a reader takes just what fits off every text of a value. -/
def Tells
    {α : Type} (reader : Reader α) (value : Value) (Fits : α → Prop) : Prop :=
  ∀ ⦃form rest : List Char⦄,
    ValueForm value form → Stops continuesNumber rest →
      ∀ (taken : α) (after : List Char),
        reader.read (form ++ rest) = .ok (taken, after) ↔
          Fits taken ∧ after = rest

/-- Whether white space in front makes no difference to a reader. -/
def SkipsBlank {α : Type} (reader : Reader α) : Prop :=
  ∀ ⦃blank : List Char⦄, Blank blank →
    ∀ text, reader.read (blank ++ text) = reader.read text

section Telling

variable {α β : Type} {reader : Reader α} {value : Value}
variable {Fits : α → Prop}

theorem Tells.map
    (tells : reader.Tells value Fits) (change : α → β) :
    (reader.map change).Tells value
      fun changed => ∃ taken, Fits taken ∧ change taken = changed := by
  intro form rest isForm stops changed after
  have told := tells isForm stops
  change (reader.read (form ++ rest)).map _ = _ ↔ _
  cases inner : reader.read (form ++ rest) with
  | error fault =>
      rw [inner] at told
      constructor
      · nofun
      · rintro ⟨⟨taken, fits, -⟩, same⟩
        cases (told taken after).mpr ⟨fits, same⟩
  | ok result =>
      obtain ⟨found, left⟩ := result
      rw [inner] at told
      obtain ⟨foundFits, sameRest⟩ := (told found left).mp rfl
      constructor
      · intro read
        cases read
        exact ⟨⟨found, foundFits, rfl⟩, sameRest⟩
      · rintro ⟨⟨taken, fits, rfl⟩, same⟩
        cases (told taken after).mpr ⟨fits, same⟩
        rfl

theorem Tells.congr
    {OtherFits : α → Prop} (tells : reader.Tells value Fits)
    (same : ∀ taken, Fits taken ↔ OtherFits taken) :
    reader.Tells value OtherFits := by
  intro form rest isForm stops taken after
  rw [tells isForm stops, same]

/-- A reader that takes one thing off every text of a value. -/
theorem Tells.of_read
    {content : α} (fits : ∀ taken, Fits taken ↔ content = taken)
    (reads : ∀ {form rest : List Char},
      ValueForm value form → Stops continuesNumber rest →
        reader.read (form ++ rest) = .ok (content, rest)) :
    reader.Tells value Fits := by
  intro form rest isForm stops taken after
  rw [reads isForm stops, fits, Except.ok.injEq, Prod.mk.injEq]
  exact and_congr_right fun _ => eq_comm

/-- A reader that takes nothing off any text of a value. -/
theorem Tells.of_refused
    (noneFits : ∀ taken, ¬ Fits taken)
    (refused : ∀ {first : Char}, value.Opens first →
      ∀ others result, reader.read (first :: others) ≠ .ok result) :
    reader.Tells value Fits := by
  intro form rest isForm stops taken after
  obtain ⟨first, others, rfl, opens⟩ := isForm.exists_cons
  constructor
  · intro read
    exact (refused opens _ _ read).elim
  · rintro ⟨fits, -⟩
    exact (noneFits taken fits).elim

theorem SkipsBlank.map
    (skips : reader.SkipsBlank) (change : α → β) :
    (reader.map change).SkipsBlank := by
  intro blank isBlank rest
  change (reader.read (blank ++ rest)).map _ = (reader.read rest).map _
  rw [skips isBlank]

end Telling

/-! ## Text -/

theorem skipsBlank_text : text.SkipsBlank := by
  intro blank isBlank rest
  change readText (blank ++ rest) = readText rest
  rw [readText, skipSpaces_blank_append isBlank, readText]

theorem read_text_ne_ok
    {first : Char} (noSpace : isSpace first = false) (noQuote : first ≠ '"')
    (others : List Char) (result : String × List Char) :
    text.read (first :: others) ≠ .ok result := by
  change readText (first :: others) ≠ _
  rw [readText, skipSpaces_cons_of_not_space noSpace]
  split
  · rename_i quote
    exact (noQuote (List.cons.inj quote).1).elim
  · nofun

theorem tells_text
    (value : Value) :
    text.Tells value fun taken => value = .string taken := by
  by_cases isString : ∃ content, value = .string content
  · obtain ⟨content, rfl⟩ := isString
    apply Tells.of_read
    · intro taken
      exact Iff.of_eq (Value.string.injEq content taken)
    · intro form rest isForm _
      obtain ⟨areForms⟩ : StringForm content form := by
        cases isForm
        assumption
      have characters := readString_charsForm_append areForms [] rest
      rw [List.reverse_nil, List.nil_append] at characters
      rw [List.cons_append, List.append_assoc, List.singleton_append,
        read_text_quote characters, String.ofList_toList]
  · apply Tells.of_refused
    · intro taken fits
      exact isString ⟨taken, fits⟩
    · intro first opens
      apply read_text_ne_ok opens.ne.1
      rintro rfl
      exact isString opens.exists_string

/-! ## Truth values -/

theorem skipsBlank_boolean : boolean.SkipsBlank := by
  intro blank isBlank rest
  change readBoolean (blank ++ rest) = readBoolean rest
  rw [readBoolean, skipSpaces_blank_append isBlank, readBoolean]

theorem read_boolean_ne_ok
    {first : Char} (noSpace : isSpace first = false)
    (noTrue : first ≠ 't') (noFalse : first ≠ 'f')
    (others : List Char) (result : Bool × List Char) :
    boolean.read (first :: others) ≠ .ok result := by
  change readBoolean (first :: others) ≠ _
  rw [readBoolean, skipSpaces_cons_of_not_space noSpace]
  split
  · rename_i begins
    exact (noTrue (List.cons.inj begins).1).elim
  · rename_i begins
    exact (noFalse (List.cons.inj begins).1).elim
  · nofun

theorem tells_boolean
    (value : Value) :
    boolean.Tells value fun taken => value = .boolean taken := by
  by_cases isBoolean : ∃ content, value = .boolean content
  · obtain ⟨content, rfl⟩ := isBoolean
    apply Tells.of_read
    · intro taken
      exact Iff.of_eq (Value.boolean.injEq content taken)
    · intro form rest isForm _
      cases isForm with
      | true =>
          rfl
      | false =>
          rfl
  · apply Tells.of_refused
    · intro taken fits
      exact isBoolean ⟨taken, fits⟩
    · intro first opens
      apply read_boolean_ne_ok opens.ne.1
      · rintro rfl
        exact isBoolean ⟨true, opens.eq_true⟩
      · rintro rfl
        exact isBoolean ⟨false, opens.eq_false⟩

/-! ## Words -/

theorem skipsBlank_optionalWord : optionalWord.SkipsBlank := by
  intro blank isBlank rest
  change readOptionalWord (blank ++ rest) = readOptionalWord rest
  rw [readOptionalWord, skipSpaces_blank_append isBlank, readOptionalWord]

theorem read_optionalWord_ne_ok
    {first : Char} (noSpace : isSpace first = false) (noNull : first ≠ 'n')
    (noNumber : (decide (first = '-') || first.isDigit) ≠ true)
    (others : List Char) (result : Option UInt32 × List Char) :
    optionalWord.read (first :: others) ≠ .ok result := by
  intro read
  change readOptionalWord (first :: others) = _ at read
  rw [readOptionalWord, skipSpaces_cons_of_not_space noSpace] at read
  split at read
  · cases read
  · rename_i begins
    exact noNull (List.cons.inj begins).1
  · rename_i whole
    obtain ⟨rfl, rfl⟩ := List.cons.inj whole
    rw [if_neg noNumber] at read
    cases read

/-- A numeral that is read as a word is the decimal form of it. -/
theorem exists_word_of_read_numeral
    {numeral rest after : List Char} {taken : Option UInt32}
    (form : NumeralForm numeral) (stops : Stops continuesNumber rest)
    (read : optionalWord.read (numeral ++ rest) = .ok (taken, after)) :
    .number numeral = Value.ofWord taken ∧ after = rest := by
  obtain ⟨first, others, begun, begins⟩ := form.exists_cons
  change readOptionalWord (numeral ++ rest) = _ at read
  rw [begun, List.cons_append, readOptionalWord_of_begins begins,
    ← List.cons_append, ← begun] at read
  obtain ⟨⟨number, left⟩, numberRead, read⟩ := exists_of_bind_ok read
  obtain ⟨⟨word, leftOver⟩, wordOf, result⟩ := exists_of_bind_ok read
  obtain rfl := rest_of_wordOfNumber wordOf
  cases result
  cases number with
  | floating negative magnitude =>
      cases wordOf
  | integer value =>
      change wordOfNumber after (.integer value) = _ at wordOf
      rw [wordOfNumber] at wordOf
      split at wordOf
      · rename_i fits
        obtain ⟨same, sameRest⟩ :=
          of_readNumber_eq_integer form stops numberRead fits.1
        cases wordOf
        refine ⟨?_, sameRest⟩
        rw [Value.ofWord, same, UInt32.toNat_ofNat_of_lt' fits.2]
      · cases wordOf

theorem tells_optionalWord
    (value : Value) :
    optionalWord.Tells value fun taken => value = .ofWord taken := by
  by_cases isNull : value = .null
  · obtain rfl := isNull
    have fits (taken : Option UInt32) :
        .null = Value.ofWord taken ↔ none = taken := by
      cases taken with
      | none =>
          exact ⟨fun _ => rfl, fun _ => rfl⟩
      | some word =>
          exact ⟨nofun, nofun⟩
    apply Tells.of_read fits
    intro form rest isForm _
    cases isForm
    rfl
  · by_cases isNumber : ∃ numeral, value = .number numeral
    · obtain ⟨numeral, rfl⟩ := isNumber
      intro form rest isForm stops taken after
      cases isForm with
      | number isNumeral =>
          constructor
          · exact exists_word_of_read_numeral isNumeral stops
          · rintro ⟨fits, rfl⟩
            cases taken with
            | none =>
                cases fits
            | some word =>
                cases fits
                exact (isForm_toDigits word).reads stops
    · apply Tells.of_refused
      · intro taken fits
        cases taken with
        | none =>
            exact isNull fits
        | some word =>
            exact isNumber ⟨_, fits⟩
      · intro first opens
        apply read_optionalWord_ne_ok opens.ne.1
        · rintro rfl
          exact isNull opens.eq_null
        · intro begins
          exact isNumber (opens.exists_number begins)

end Reader

/-! ## Elements of lists -/

/-- What stands before an item: nothing before the first one, and the comma
behind the one before otherwise. -/
inductive Leads : Bool → List Char → Prop
  | first :
      Leads true []
  | comma {blank : List Char} :
      Blank blank → Leads false (blank ++ [','])

theorem nextElement_leads_append
    {first : Bool} {lead text rest : List Char} {character : Char}
    (leads : Leads first lead)
    (heading : skipSpaces text = character :: rest)
    (noClosing : character ≠ ']') :
    nextElement first (lead ++ text) = .ok (.element (character :: rest)) := by
  cases leads with
  | first =>
      rw [List.nil_append, nextElement, heading]
      split
      · rename_i ended
        cases ended
      · rename_i closing
        exact (noClosing (List.cons.inj closing).1).elim
      · rename_i whole
        rw [if_pos rfl, ← whole]
  | comma isBlank =>
      rw [List.append_assoc, List.singleton_append, nextElement,
        skipSpaces_blank_cons isBlank (by decide)]
      simp [heading, noClosing]

theorem nextElement_blank_close
    (first : Bool) {blank : List Char} (isBlank : Blank blank)
    (rest : List Char) :
    nextElement first (blank ++ ']' :: rest) = .ok (.closed rest) := by
  rw [nextElement, skipSpaces_blank_cons isBlank (by decide)]
  rfl

section Elements

variable {α : Type} {item : Reader α} {Fits : Value → α → Prop}
variable {first : Bool} {reversed values : List α}
variable {start text rest after : List Char}

theorem readElements_of_item_error
    {fault : Fault} (next : nextElement first text = .ok (.element start))
    (failed : item.read start = .error fault) :
    readElements item reversed first text = .error fault := by
  rw [readElements]
  split
  case h_3 other found =>
    obtain rfl : other = start := by
      rw [found, Except.ok.injEq, NextElement.element.injEq] at next
      exact next
    split <;> simp_all
  all_goals simp_all

theorem readElements_eq_ok_iff
    (next : nextElement first text = .ok (.element start)) :
    readElements item reversed first text = .ok (values, after) ↔
      ∃ value rest, item.read start = .ok (value, rest) ∧
        readElements item (value :: reversed) false rest =
          .ok (values, after) := by
  cases taken : item.read start with
  | ok result =>
      obtain ⟨value, rest⟩ := result
      rw [readElements_of_element next taken]
      constructor
      · intro read
        exact ⟨value, rest, rfl, read⟩
      · rintro ⟨_, _, same, read⟩
        cases same
        exact read
  | error fault =>
      rw [readElements_of_item_error next taken]
      constructor
      · intro read
        cases read
      · rintro ⟨_, _, same, _⟩
        cases same

/-- An element is read, and then those behind it. -/
theorem readElements_form_append_iff
    {value : Value} {lead before form : List Char}
    (tells : item.Tells value (Fits value)) (leads : Leads first lead)
    (isBefore : Blank before) (isForm : ValueForm value form)
    (stops : Stops continuesNumber rest) :
    readElements item reversed first (lead ++ (before ++ (form ++ rest))) =
        .ok (values, after) ↔
      ∃ taken, Fits value taken ∧
        readElements item (taken :: reversed) false rest =
          .ok (values, after) := by
  have told := tells isForm stops
  obtain ⟨character, others, rfl, opens⟩ := isForm.exists_cons
  have next :=
    nextElement_leads_append leads
      (skipSpaces_blank_cons isBefore opens.ne.1 (others ++ rest))
      opens.ne.2.2.1
  rw [List.cons_append] at told ⊢
  rw [readElements_eq_ok_iff next]
  constructor
  · rintro ⟨taken, left, read, further⟩
    obtain ⟨fits, rfl⟩ := (told taken left).mp read
    exact ⟨taken, fits, further⟩
  · rintro ⟨taken, fits, further⟩
    exact ⟨taken, rest, (told taken rest).mpr ⟨fits, rfl⟩, further⟩

/-- The elements that are read are those that fit, in their order. -/
theorem readElements_separated_iff
    {elements : List Value} {forms lead : List Char}
    (tells : ∀ value ∈ elements, item.Tells value (Fits value))
    (separated : Separated ValueForm elements forms)
    (leads : Leads first lead) :
    readElements item reversed first (lead ++ (forms ++ ']' :: rest)) =
        .ok (values, after) ↔
      (∃ more, List.Forall₂ Fits elements more ∧
        values = reversed.reverse ++ more) ∧ after = rest := by
  -- All items but the first have a comma before them, so the lead is left open.
  induction separated generalizing first lead reversed with
  | @one value before form behind isBefore isForm isBehind =>
      have noNumber : continuesNumber ']' = false := by
        decide
      have stops := stops_blank_cons isBehind noNumber rest
      have closed := nextElement_blank_close false isBehind rest
      simp only [List.append_assoc]
      rw [readElements_form_append_iff (tells value List.mem_cons_self) leads
        isBefore isForm stops]
      constructor
      · rintro ⟨taken, fits, read⟩
        rw [readElements_of_closed closed] at read
        cases read
        exact ⟨⟨[taken], .cons fits .nil, List.reverse_cons⟩, rfl⟩
      · rintro ⟨⟨more, allFit, rfl⟩, rfl⟩
        obtain ⟨taken, others, fits, nothing, rfl⟩ :=
          List.forall₂_cons_left_iff.mp allFit
        cases nothing
        refine ⟨taken, fits, ?_⟩
        rw [readElements_of_closed closed, List.reverse_cons]
  | @more value elements before form behind forms isBefore isForm isBehind _
      inductionHypothesis =>
      have noNumber : continuesNumber ',' = false := by
        decide
      have stops :=
        stops_blank_cons isBehind noNumber (forms ++ ']' :: rest)
      have further (taken : α) :=
        @inductionHypothesis false (taken :: reversed) (behind ++ [','])
          (fun other member => tells other (List.mem_cons_of_mem value member))
          (.comma isBehind)
      simp only [List.append_assoc, List.cons_append, List.nil_append]
        at further ⊢
      rw [readElements_form_append_iff (tells value List.mem_cons_self) leads
        isBefore isForm stops]
      constructor
      · rintro ⟨taken, fits, read⟩
        obtain ⟨⟨more, allFit, same⟩, sameRest⟩ := (further taken).mp read
        rw [List.reverse_cons, List.append_assoc, List.singleton_append]
          at same
        exact ⟨⟨taken :: more, .cons fits allFit, same⟩, sameRest⟩
      · rintro ⟨⟨more, allFit, rfl⟩, sameRest⟩
        obtain ⟨taken, others, fits, othersFit, rfl⟩ :=
          List.forall₂_cons_left_iff.mp allFit
        refine ⟨taken, fits, (further taken).mpr ⟨⟨others, othersFit, ?_⟩,
          sameRest⟩⟩
        rw [List.reverse_cons, List.append_assoc, List.singleton_append]

theorem read_list_ne_ok
    {character : Char} (noSpace : isSpace character = false)
    (noBracket : character ≠ '[') (others : List Char)
    (result : List α × List Char) :
    (Reader.list item).read (character :: others) ≠ .ok result := by
  change readList item (character :: others) ≠ _
  rw [readList, skipSpaces_cons_of_not_space noSpace]
  split
  · rename_i bracket
    exact (noBracket (List.cons.inj bracket).1).elim
  · nofun

theorem Reader.skipsBlank_list : (Reader.list item).SkipsBlank := by
  intro blank isBlank rest
  change readList item (blank ++ rest) = readList item rest
  rw [readList, skipSpaces_blank_append isBlank, readList]

/-- A list is accepted if each of its elements is. -/
theorem Reader.tells_list
    {elements : List Value}
    (tells : ∀ value ∈ elements, item.Tells value (Fits value)) :
    (Reader.list item).Tells (.list elements)
      (List.Forall₂ Fits elements) := by
  intro form rest isForm stops taken after
  cases isForm with
  | list enclosed =>
      cases enclosed with
      | empty isBlank =>
          have closed := nextElement_blank_close true isBlank rest
          rw [List.cons_append, List.append_assoc, List.singleton_append,
            Reader.read_list_bracket, readElements_of_closed closed,
            List.forall₂_nil_left_iff, List.reverse_nil, Except.ok.injEq,
            Prod.mk.injEq]
          exact and_congr eq_comm eq_comm
      | @items _ forms separated =>
          have elementsRead :=
            @readElements_separated_iff α item Fits true [] taken rest after
              elements forms [] tells separated .first
          rw [List.cons_append, List.append_assoc, List.singleton_append,
            Reader.read_list_bracket]
          rw [List.nil_append] at elementsRead
          rw [elementsRead]
          simp

end Elements

/-! ## Lists of texts -/

theorem Reader.tells_list_text
    (value : Value) :
    (Reader.list Reader.text).Tells value
      fun taken => value = .list (taken.map .string) := by
  by_cases isList : ∃ elements, value = .list elements
  · obtain ⟨elements, rfl⟩ := isList
    have told :=
      Reader.tells_list fun element (_ : element ∈ elements) =>
        Reader.tells_text element
    apply told.congr
    intro taken
    rw [Value.list.injEq, ← List.forall₂_eq_eq_eq,
      List.forall₂_map_right_iff]
  · apply Reader.Tells.of_refused
    · intro taken fits
      exact isList ⟨_, fits⟩
    · intro first opens
      apply read_list_ne_ok opens.ne.1
      rintro rfl
      exact isList opens.exists_list

end SemanticTokens.Json
