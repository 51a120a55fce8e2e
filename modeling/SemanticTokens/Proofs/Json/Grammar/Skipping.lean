import Mathlib.Data.List.DropRight
import SemanticTokens.Json.Skip
import SemanticTokens.Proofs.Json.Grammar.Numerals
import SemanticTokens.Proofs.Json.Grammar.Tokens

/-!
# Skipping values of the grammar

A text of the grammar is skipped as a whole, however deep its lists and objects
are nested, and whatever follows.  Inside a bracket, the items are skipped one
after the other, each up to the comma or the closing bracket behind it.  The
induction is on the length of the text, since the items of a list or an object
are shorter than it.
-/

namespace SemanticTokens.Json

open Text

/-! ## How values begin -/

def Value.Opens : Value → Char → Prop
  | null, first => first = 'n'
  | boolean value, first => first = if value then 't' else 'f'
  | number _, first => first = '-' ∨ first.isDigit = true
  | string _, first => first = '"'
  | list _, first => first = '['
  | object _, first => first = '\x7b'

theorem NumeralForm.exists_cons
    {numeral : List Char} (form : NumeralForm numeral) :
    ∃ first others, numeral = first :: others ∧
      (first = '-' ∨ first.isDigit = true) := by
  obtain @⟨sign, whole, fraction, exponent, among, wholeForm, -, -⟩ := form
  simp only [List.mem_cons, List.not_mem_nil, or_false] at among
  rcases among with rfl | rfl
  · obtain ⟨first, others, rfl, isDigit⟩ := wholeForm.exists_cons
    exact ⟨first, _, rfl, .inr isDigit⟩
  · exact ⟨'-', _, rfl, .inl rfl⟩

theorem Enclosed.exists_cons
    {α : Type} {Form : α → List Char → Prop} {opening closing : Char}
    {items : List α} {form : List Char}
    (enclosed : Enclosed Form opening closing items form) :
    ∃ others, form = opening :: others := by
  cases enclosed with
  | empty _ =>
      exact ⟨_, rfl⟩
  | items _ =>
      exact ⟨_, rfl⟩

theorem ValueForm.exists_cons
    {value : Value} {form : List Char} (isForm : ValueForm value form) :
    ∃ first others, form = first :: others ∧ value.Opens first := by
  cases isForm with
  | null =>
      exact ⟨_, _, rfl, rfl⟩
  | true =>
      exact ⟨_, _, rfl, rfl⟩
  | false =>
      exact ⟨_, _, rfl, rfl⟩
  | number numeral =>
      exact numeral.exists_cons
  | string quoted =>
      cases quoted with
      | quoted _ =>
          exact ⟨_, _, rfl, rfl⟩
  | list enclosed =>
      obtain ⟨others, same⟩ := enclosed.exists_cons
      exact ⟨_, others, same, rfl⟩
  | object enclosed =>
      obtain ⟨others, same⟩ := enclosed.exists_cons
      exact ⟨_, others, same, rfl⟩

/-- No value begins with white space or with what may stand behind a value. -/
theorem Value.Opens.ne
    {value : Value} {first : Char} (opens : value.Opens first) :
    isSpace first = false ∧ first ≠ ',' ∧ first ≠ ']' ∧ first ≠ '\x7d' := by
  cases value with
  | boolean value =>
      cases value <;> subst opens <;> decide
  | number numeral =>
      rcases opens with rfl | isDigit
      · decide
      · exact ⟨isSpace_of_isDigit isDigit, ne_of_isDigit isDigit (by decide),
          ne_of_isDigit isDigit (by decide),
          ne_of_isDigit isDigit (by decide)⟩
  | null | string _ | list _ | object _ =>
      subst opens
      decide

/-! ### What a first character tells -/

section Telling

variable {value : Value}

theorem Value.Opens.exists_string
    (opens : value.Opens '"') :
    ∃ content, value = .string content := by
  rcases value with _ | ⟨_ | _⟩ | _ | _ | _ | _ <;> simp_all [Value.Opens]

theorem Value.Opens.exists_list
    (opens : value.Opens '[') :
    ∃ content, value = .list content := by
  rcases value with _ | ⟨_ | _⟩ | _ | _ | _ | _ <;> simp_all [Value.Opens]

theorem Value.Opens.exists_object
    (opens : value.Opens '\x7b') :
    ∃ content, value = .object content := by
  rcases value with _ | ⟨_ | _⟩ | _ | _ | _ | _ <;> simp_all [Value.Opens]

theorem Value.Opens.eq_true
    (opens : value.Opens 't') :
    value = .boolean true := by
  rcases value with _ | ⟨_ | _⟩ | _ | _ | _ | _ <;> simp_all [Value.Opens]

theorem Value.Opens.eq_false
    (opens : value.Opens 'f') :
    value = .boolean false := by
  rcases value with _ | ⟨_ | _⟩ | _ | _ | _ | _ <;> simp_all [Value.Opens]

theorem Value.Opens.eq_null
    (opens : value.Opens 'n') :
    value = .null := by
  rcases value with _ | ⟨_ | _⟩ | _ | _ | _ | _ <;> simp_all [Value.Opens]

theorem Value.Opens.exists_number
    {first : Char} (opens : value.Opens first)
    (begins : (decide (first = '-') || first.isDigit) = true) :
    ∃ numeral, value = .number numeral := by
  rcases value with _ | ⟨_ | _⟩ | _ | _ | _ | _ <;> simp_all [Value.Opens]

end Telling

/-! ## Scalars and colons -/

theorem skipScalar_numeral_append
    {numeral rest : List Char} (form : NumeralForm numeral)
    (stops : Stops continuesNumber rest) :
    skipScalar (numeral ++ rest) = .ok rest := by
  have skipped := skipNumber_form_append form stops
  obtain ⟨first, others, rfl, begins⟩ := form.exists_cons
  have isNumber : (decide (first = '-') || first.isDigit) = true := by
    rw [Bool.or_eq_true, decide_eq_true_eq]
    exact begins
  have different :
      ∀ other : Char, other ≠ '-' → other.isDigit = false → first ≠ other := by
    intro other noMinus noDigit
    rcases begins with rfl | isDigit
    · exact noMinus.symm
    · exact ne_of_isDigit isDigit noDigit
  rw [List.cons_append] at skipped ⊢
  rw [skipScalar]
  · rw [if_pos isNumber]
    exact skipped
  · exact different 'n' (by decide) (by decide)
  · exact different 't' (by decide) (by decide)
  · exact different 'f' (by decide) (by decide)
  · exact different '"' (by decide) (by decide)

theorem skipColon_blank_append
    {blank : List Char} (isBlank : Blank blank) (text : List Char) :
    skipColon (blank ++ ':' :: text) = .ok text := by
  rw [skipColon, skipSpaces_blank_cons isBlank (by decide)]
  rfl

namespace SkipState

variable {outer : List Bracket} {bracket : Bracket}
variable {form rest : List Char}

theorem finish_value
    (brackets : List Bracket) (text : List Char) :
    finish .value brackets text =
      beginValue brackets text >>= fun next =>
        finish next.stage next.brackets next.rest := by
  rw [finish]
  split
  · rename_i failed
    rw [failed]
    rfl
  · rename_i next step
    rw [step]
    rfl

theorem finish_afterValue_cons
    (bracket : Bracket) (outer : List Bracket) (text : List Char) :
    finish .afterValue (bracket :: outer) text =
      continueBracket bracket outer text >>= fun next =>
        finish next.stage next.brackets next.rest := by
  rw [finish]
  split
  · rename_i failed
    rw [failed]
    rfl
  · rename_i next step
    rw [step]
    rfl

theorem finish_blank_append
    {blank : List Char} (isBlank : Blank blank) (text : List Char) :
    finish .value outer (blank ++ text) = finish .value outer text := by
  rw [finish_value, finish_value, beginValue, beginValue,
    skipSpaces_blank_append isBlank]

/-! ## Items inside a bracket -/

/-- Whether an item at the front of a text is skipped to a given end. -/
def ItemEnds
    (bracket : Bracket) (outer : List Bracket) (text : List Char)
    (result : Except Fault (List Char)) : Prop :=
  ∃ start, skipToValue bracket text = .ok start ∧
    finish .value (bracket :: outer) start = result

/-- Whether an item is skipped, whatever stands around it. -/
structure SkipsItem (bracket : Bracket) (form : List Char) : Prop where
  begins : ∃ first others, form = first :: others ∧
    isSpace first = false ∧ first ≠ bracket.closing
  ends : ∀ {outer : List Bracket} {before rest : List Char},
    Blank before → Stops continuesNumber rest →
      ItemEnds bracket outer (before ++ (form ++ rest))
        (finish .afterValue (bracket :: outer) rest)

theorem isSpace_closing
    (bracket : Bracket) :
    isSpace bracket.closing = false ∧ continuesNumber bracket.closing = false ∧
      ',' ≠ bracket.closing := by
  cases bracket <;> decide

theorem finish_closing
    {blank : List Char} (isBlank : Blank blank) :
    finish .afterValue (bracket :: outer)
        (blank ++ bracket.closing :: rest) =
      finish .afterValue outer rest := by
  obtain ⟨noSpace, -, -⟩ := isSpace_closing bracket
  rw [finish_afterValue_cons, continueBracket,
    skipSpaces_blank_cons isBlank noSpace]
  dsimp only
  rw [if_pos rfl]
  rfl

theorem finish_comma
    {blank text : List Char} (isBlank : Blank blank)
    {result : Except Fault (List Char)}
    (ends : ItemEnds bracket outer text result) :
    finish .afterValue (bracket :: outer) (blank ++ ',' :: text) =
      result := by
  obtain ⟨start, toValue, finished⟩ := ends
  obtain ⟨-, -, noClosing⟩ := isSpace_closing bracket
  rw [finish_afterValue_cons, continueBracket,
    skipSpaces_blank_cons isBlank (by decide)]
  dsimp only
  rw [if_neg noClosing, if_pos rfl, toValue]
  exact finished

section Separated

variable {α : Type} {Form : α → List Char → Prop} {limit : Nat}

/-- Items that are skipped one by one are skipped together, up to the closing
bracket. -/
theorem itemEnds_separated
    (skips : ∀ item form, Form item form → form.length < limit →
      SkipsItem bracket form)
    {items : List α} {forms : List Char}
    (separated : Separated Form items forms)
    (short : forms.length < limit) :
    ItemEnds bracket outer (forms ++ bracket.closing :: rest)
      (finish .afterValue outer rest) := by
  obtain ⟨noSpace, noNumber, -⟩ := isSpace_closing bracket
  -- Each item leaves off at its comma, where the others go on, or at the bracket.
  induction separated with
  | @one item before form after isBefore isForm isAfter =>
      simp only [List.length_append] at short
      have stops := stops_blank_cons isAfter noNumber rest
      have ends : ItemEnds bracket outer _ _ :=
        (skips item form isForm (by omega)).ends isBefore stops
      rw [finish_closing isAfter] at ends
      simp only [List.append_assoc]
      exact ends
  | @more item items before form after forms isBefore isForm isAfter _
      inductionHypothesis =>
      simp only [List.length_append, List.length_cons] at short
      have comma : continuesNumber ',' = false := by
        decide
      have stops :=
        stops_blank_cons isAfter comma (forms ++ bracket.closing :: rest)
      have ends : ItemEnds bracket outer _ _ :=
        (skips item form isForm (by omega)).ends isBefore stops
      rw [finish_comma isAfter (inductionHypothesis (by omega))] at ends
      simp only [List.append_assoc, List.cons_append]
      exact ends

theorem skipSpaces_idempotent
    (text : List Char) :
    skipSpaces (skipSpaces text) = skipSpaces text :=
  List.dropWhile_idempotent isSpace text

/-- An item may be begun with the white space before it or without. -/
theorem ItemEnds.skipSpaces
    {text : List Char} {result : Except Fault (List Char)}
    (ends : ItemEnds bracket outer text result) :
    ItemEnds bracket outer (skipSpaces text) result := by
  obtain ⟨start, toValue, finished⟩ := ends
  cases bracket with
  | list =>
      cases toValue
      refine ⟨Json.skipSpaces text, rfl, ?_⟩
      rw [finish_value, beginValue, skipSpaces_idempotent]
      rw [finish_value, beginValue] at finished
      exact finished
  | object =>
      refine ⟨start, ?_, finished⟩
      rw [skipToValue, skipKey] at toValue ⊢
      rw [skipSpaces_idempotent]
      exact toValue

theorem Separated.exists_skipSpaces
    (skips : ∀ item form, Form item form → form.length < limit →
      SkipsItem bracket form)
    {items : List α} {forms : List Char}
    (separated : Separated Form items forms)
    (short : forms.length < limit) (rest : List Char) :
    ∃ first others, Json.skipSpaces (forms ++ rest) = first :: others ∧
      first ≠ bracket.closing := by
  have begun {item : α} {before form after : List Char}
      (isBefore : Blank before) (isForm : Form item form)
      (shorter : form.length < limit) :
      ∃ first others,
        Json.skipSpaces (before ++ (form ++ after)) = first :: others ∧
          first ≠ bracket.closing := by
    obtain ⟨first, others, rfl, noSpace, noClosing⟩ :=
      (skips item form isForm shorter).begins
    exact ⟨first, others ++ after,
      skipSpaces_blank_cons isBefore noSpace _, noClosing⟩
  cases separated with
  | one isBefore isForm isAfter =>
      simp only [List.length_append] at short
      simp only [List.append_assoc]
      exact begun isBefore isForm (by omega)
  | more isBefore isForm isAfter _ =>
      simp only [List.length_append, List.length_cons] at short
      simp only [List.append_assoc]
      exact begun isBefore isForm (by omega)

theorem finish_enclosed
    {opening : Char}
    (opens : ∀ text, beginValue outer (opening :: text) =
      enter outer bracket text)
    (skips : ∀ item form, Form item form → form.length < limit →
      SkipsItem bracket form)
    {items : List α}
    (enclosed : Enclosed Form opening bracket.closing items form)
    (short : form.length ≤ limit) :
    finish .value outer (form ++ rest) =
      finish .afterValue outer rest := by
  obtain ⟨noSpace, -, -⟩ := isSpace_closing bracket
  cases enclosed with
  | empty isBlank =>
      rw [List.cons_append, List.append_assoc, List.singleton_append,
        finish_value, opens, enter, skipSpaces_blank_cons isBlank noSpace]
      dsimp only
      rw [if_pos rfl]
      rfl
  | @items _ forms separated =>
      simp only [List.length_cons, List.length_append, List.length_nil]
        at short
      obtain ⟨first, others, begins, noClosing⟩ :=
        Separated.exists_skipSpaces skips separated (by omega)
          (bracket.closing :: rest)
      have ends :
          ItemEnds bracket outer (forms ++ bracket.closing :: rest)
            (finish .afterValue outer rest) :=
        itemEnds_separated skips separated (by omega)
      obtain ⟨start, toValue, finished⟩ := ends.skipSpaces
      rw [begins] at toValue
      rw [List.cons_append, List.append_assoc, List.singleton_append,
        finish_value, opens, enter, begins]
      dsimp only
      rw [if_neg noClosing, toValue]
      exact finished

end Separated

/-! ## Values -/

/-- Whether a text is skipped as one value, whatever brackets stand around it. -/
def SkipsValue (form : List Char) : Prop :=
  ∀ ⦃brackets : List Bracket⦄ ⦃rest : List Char⦄,
    Stops continuesNumber rest →
      finish .value brackets (form ++ rest) =
        finish .afterValue brackets rest

theorem finish_scalar
    {value : Value} {first : Char} {others : List Char}
    (opens : value.Opens first) (noList : first ≠ '[')
    (noObject : first ≠ '\x7b')
    (skip : skipScalar (first :: others) = .ok rest) :
    finish .value outer (first :: others) =
      finish .afterValue outer rest := by
  have heading := skipSpaces_cons_of_not_space opens.ne.1 others
  have begun :
      beginValue outer (first :: others) = .ok ⟨.afterValue, outer, rest⟩ := by
    rw [beginValue, heading]
    split
    · rename_i bracket
      exact (noList (List.cons.inj bracket).1).elim
    · rename_i bracket
      exact (noObject (List.cons.inj bracket).1).elim
    · rw [skip]
      rfl
  rw [finish_value, begun]
  rfl

theorem skipsItem_value
    {value : Value} (isForm : ValueForm value form)
    (skips : SkipsValue form) :
    SkipsItem .list form where
  begins := by
    obtain ⟨first, others, same, opens⟩ := isForm.exists_cons
    exact ⟨first, others, same, opens.ne.1, opens.ne.2.2.1⟩
  ends isBefore stops := by
    refine ⟨_, rfl, ?_⟩
    rw [finish_blank_append isBefore, skips stops]

theorem skipsItem_member
    {member : String × Value} {limit : Nat}
    (skips : ∀ value form, ValueForm value form → form.length < limit →
      SkipsValue form)
    (isForm : MemberForm ValueForm member form)
    (short : form.length < limit) :
    SkipsItem .object form := by
  obtain @⟨key, value, keyForm, afterKey, beforeValue, valueForm, quoted,
    isAfter, isBefore, isValue⟩ := isForm
  obtain ⟨areForms⟩ := quoted
  simp only [List.length_append, List.length_cons, List.length_nil] at short
  constructor
  · exact ⟨'"', _, rfl, by decide, by decide⟩
  · intro outer before rest isBlank stops
    have valueSkipped :
        finish .value (.object :: outer)
            (beforeValue ++ (valueForm ++ rest)) =
          finish .afterValue (.object :: outer) rest := by
      rw [finish_blank_append isBefore,
        skips value valueForm isValue (by omega) stops]
    refine ⟨beforeValue ++ (valueForm ++ rest), ?_, valueSkipped⟩
    simp only [List.append_assoc, List.cons_append, List.nil_append]
    rw [skipToValue, skipKey, skipSpaces_blank_cons isBlank (by decide)]
    change skipString _ >>= skipColon = _
    rw [skipString_charsForm_append areForms]
    exact skipColon_blank_append isAfter _

theorem skipsValue_of_length_lt :
    ∀ (limit : Nat) (value : Value) (form : List Char),
      ValueForm value form → form.length < limit → SkipsValue form
  | 0, _, _, _, short => by
      omega
  | limit + 1, value, form, isForm, short => by
      -- Whatever stands inside a bracket is shorter than the whole.
      have inside := skipsValue_of_length_lt limit
      intro brackets rest stops
      cases isForm with
      | null =>
          have opens : Value.null.Opens 'n' := rfl
          exact finish_scalar opens (by decide) (by decide) rfl
      | true =>
          have opens : (Value.boolean true).Opens 't' := rfl
          exact finish_scalar opens (by decide) (by decide) rfl
      | false =>
          have opens : (Value.boolean false).Opens 'f' := rfl
          exact finish_scalar opens (by decide) (by decide) rfl
      | number numeral =>
          have skipped := skipScalar_numeral_append numeral stops
          obtain ⟨first, others, rfl, begins⟩ := numeral.exists_cons
          have opens : (Value.number (first :: others)).Opens first := begins
          have noBracket : first ≠ '[' ∧ first ≠ '\x7b' := by
            rcases begins with rfl | isDigit
            · decide
            · exact ⟨ne_of_isDigit isDigit (by decide),
                ne_of_isDigit isDigit (by decide)⟩
          exact finish_scalar opens noBracket.1 noBracket.2 skipped
      | @string value _ quoted =>
          obtain ⟨areForms⟩ := quoted
          have opens : (Value.string value).Opens '"' := rfl
          have skipped := skipString_charsForm_append areForms rest
          rw [List.cons_append, List.append_assoc, List.singleton_append]
          exact finish_scalar opens (by decide) (by decide) skipped
      | list enclosed =>
          have opens (text : List Char) :
              beginValue brackets ('[' :: text) = enter brackets .list text :=
            rfl
          refine finish_enclosed opens ?_ enclosed (Nat.le_of_lt_succ short)
          intro item form isForm shorter
          exact skipsItem_value isForm (inside item form isForm shorter)
      | object enclosed =>
          have opens (text : List Char) :
              beginValue brackets ('\x7b' :: text) =
                enter brackets .object text :=
            rfl
          refine finish_enclosed opens ?_ enclosed (Nat.le_of_lt_succ short)
          intro member form isForm shorter
          exact skipsItem_member inside isForm shorter

end SkipState

/-- A value of the grammar is skipped up to its end. -/
theorem skipValue_blank_form_append
    {value : Value} {before form rest : List Char}
    (isBefore : Blank before) (isForm : ValueForm value form)
    (stops : Stops continuesNumber rest) :
    skipValue (before ++ (form ++ rest)) = .ok rest := by
  have skips :=
    SkipState.skipsValue_of_length_lt (form.length + 1) value form isForm
      (Nat.lt_succ_self form.length)
  rw [skipValue, SkipState.finish_blank_append isBefore, skips stops,
    SkipState.finish]

end SemanticTokens.Json
