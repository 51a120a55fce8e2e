import Mathlib.Data.List.TakeWhile
import SemanticTokens.Proofs.Json.Stability.Values
import SemanticTokens.Proofs.NameRecord.RoundTrip

/-!
# No text of records begins another one

A record ends with its own bracket, and so does a list of records, so neither
depends on what follows.  A text that is accepted is therefore no proper
beginning of another accepted text, blanks at the end apart: a text that is cut
short is never taken for a shorter list, and nothing may follow the closing
bracket.
-/

namespace SemanticTokens

open Json

namespace NameRecord

/-! ## Records given as objects -/

section Objects

variable {text rest : List Char} (more : List Char)

theorem nextMember_append_of_closed
    {first : Bool} (next : nextMember first text = .ok (.closed rest)) :
    nextMember first (text ++ more) = .ok (.closed (rest ++ more)) := by
  unfold nextMember at next
  split at next
  · cases next
  · rename_i heading
    cases next
    rw [nextMember, skipSpaces_append_of_eq_cons heading]
    rfl
  · split at next
    · split at next <;> cases next
    · split at next
      · split at next <;> cases next
      · cases next

theorem nextMember_append_of_key
    {first : Bool} (next : nextMember first text = .ok (.key rest)) :
    nextMember first (text ++ more) = .ok (.key (rest ++ more)) := by
  unfold nextMember at next
  split at next
  · cases next
  · cases next
  · rename_i character tail noBracket heading
    rw [nextMember, skipSpaces_append_of_eq_cons heading]
    split
    · rename_i ended
      cases ended
    · rename_i bracket
      obtain ⟨rfl, -⟩ := List.cons.inj bracket
      exact (noBracket rfl).elim
    · rename_i whole
      obtain ⟨rfl, rfl⟩ := List.cons.inj whole
      split at next
      · rename_i isFirst
        rw [if_pos isFirst]
        split at next
        · rename_i quote
          cases next
          rw [if_pos quote]
        · cases next
      · rename_i notFirst
        rw [if_neg notFirst]
        split at next
        · rename_i comma
          rw [if_pos comma]
          split at next
          · cases next
          · rename_i innerHeading
            cases next
            rw [skipSpaces_append_of_eq_cons innerHeading]
            rfl
          · cases next
          · cases next
        · cases next

theorem stable_reader
    (draft : NameDraft) (field : NameField) :
    (draft.reader field).Stable := by
  cases field with
  | name | kind =>
      rw [NameDraft.reader]
      exact Reader.Stable.map Reader.stable_text _
  | line | column =>
      rw [NameDraft.reader]
      exact Reader.Stable.map Reader.stable_optionalWord _
  | isDefinition =>
      rw [NameDraft.reader]
      exact Reader.Stable.map Reader.stable_boolean _
  | inferred =>
      rw [NameDraft.reader]
      exact Reader.Stable.map (Reader.Stable.list Reader.stable_text) _

theorem readMember_append
    {draft updated : NameDraft} {key : String}
    (read : readMember draft key text = .ok (updated, rest))
    (remains : rest ≠ []) :
    readMember draft key (text ++ more) = .ok (updated, rest ++ more) := by
  unfold readMember at read ⊢
  split at read
  · obtain ⟨afterColon, colon, skipped⟩ := exists_of_bind_ok read
    obtain ⟨after, value, result⟩ := exists_of_bind_ok skipped
    cases result
    rw [skipColon_append more colon]
    change Except.bind (skipValue (afterColon ++ more)) _ = _
    rw [skipValue_append more value remains]
    rfl
  · rename_i field _
    split at read
    · cases read
    · rename_i isFree
      obtain ⟨afterColon, colon, value⟩ := exists_of_bind_ok read
      rw [if_neg isFree, skipColon_append more colon]
      exact stable_reader draft field value remains more

/-- The members of an object end with its bracket, so nothing needs to be left. -/
theorem readMembers_append
    {draft : NameDraft} {first : Bool} {record : NameRecord}
    (read : readMembers draft first text = .ok (record, rest)) :
    readMembers draft first (text ++ more) = .ok (record, rest ++ more) := by
  fun_induction readMembers draft first text with
  | case1 => cases read
  | case2 => cases read
  | case3 draft first text tail next record finished =>
      cases read
      exact readMembers_of_closed (nextMember_append_of_closed more next)
        finished
  | case4 => cases read
  | case5 => cases read
  | case6 draft first text start next key afterKey keyRead updated tail
      member inductionHypothesis =>
      have remains : tail ≠ [] :=
        List.ne_nil_of_length_pos
          (Nat.lt_of_le_of_lt (Nat.zero_le _)
            (length_lt_of_readMembers read))
      rw [readMembers_of_key (nextMember_append_of_key more next)
          (readString_append more keyRead)
          (readMember_append more member remains),
        inductionHypothesis read]

end Objects

/-! ## Records given as lists -/

namespace ListTail

def append (tail : ListTail) (text : List Char) : ListTail :=
  match tail with
  | more rest => more (rest ++ text)
  | closed rest => closed (rest ++ text)

section Elements

variable {α : Type} {item : Reader α} {tail after : ListTail}
variable (behind : List Char)

theorem ne_more_nil_of_read?
    {first : Bool} {value : Option α}
    (read : tail.read? item first = .ok (value, after)) :
    tail ≠ more [] := by
  rintro rfl
  cases read

theorem ne_more_nil_of_readRequired
    {before : Nat} {value : α}
    (read : tail.readRequired item before = .ok (value, after)) :
    tail ≠ more [] := by
  rintro rfl
  cases read

theorem ne_more_nil_of_close
    {rest : List Char} (close : tail.close = .ok rest) :
    tail ≠ more [] := by
  rintro rfl
  cases close

theorem read?_append
    (stable : item.Stable) {first : Bool} {value : Option α}
    (read : tail.read? item first = .ok (value, after))
    (remains : after ≠ more []) :
    (tail.append behind).read? item first =
      .ok (value, after.append behind) := by
  cases tail with
  | closed rest =>
      cases read
      rfl
  | more text =>
      rw [read?] at read
      rw [append, read?]
      split at read
      · cases read
      · rename_i next
        cases read
        rw [nextElement_append_of_closed behind next]
        rfl
      · rename_i start next
        rw [nextElement_append_of_element behind next]
        dsimp only
        split at read
        · cases read
        · rename_i taken rest element
          cases read
          have left : rest ≠ [] := by
            rintro rfl
            exact remains rfl
          rw [stable element left behind]
          rfl

theorem readRequired_append
    (stable : item.Stable) {before : Nat} {value : α}
    (read : tail.readRequired item before = .ok (value, after))
    (remains : after ≠ more []) :
    (tail.append behind).readRequired item before =
      .ok (value, after.append behind) := by
  unfold readRequired at read
  split at read
  · cases read
  · cases read
  · rename_i element
    cases read
    rw [readRequired, read?_append behind stable element remains]

theorem close_append
    {rest : List Char} (close : tail.close = .ok rest) :
    (tail.append behind).close = .ok (rest ++ behind) := by
  cases tail with
  | closed rest =>
      cases close
      rfl
  | more text =>
      exact closeList_append behind close

end Elements

end ListTail

section Records

variable {text rest : List Char} {record : NameRecord} (more : List Char)

theorem readElements_append
    (read : readElements text = .ok (record, rest)) :
    readElements (text ++ more) = .ok (record, rest ++ more) := by
  obtain ⟨⟨name, afterName⟩, nameRead, read⟩ := exists_of_bind_ok read
  obtain ⟨⟨line, afterLine⟩, lineRead, read⟩ := exists_of_bind_ok read
  obtain ⟨⟨column, afterColumn⟩, columnRead, read⟩ := exists_of_bind_ok read
  obtain ⟨⟨kind, afterKind⟩, kindRead, read⟩ := exists_of_bind_ok read
  obtain ⟨⟨isDefinition, afterDefinition⟩, definitionRead, read⟩ :=
    exists_of_bind_ok read
  obtain ⟨⟨inferred, afterInferred⟩, inferredRead, read⟩ :=
    exists_of_bind_ok read
  obtain ⟨after, close, result⟩ := exists_of_bind_ok read
  cases result
  -- What each part leaves is not empty, since the next part was read from it.
  have nameFurther :=
    ListTail.readRequired_append more Reader.stable_text nameRead
      (ListTail.ne_more_nil_of_read? lineRead)
  have lineFurther :=
    ListTail.read?_append more Reader.stable_optionalWord lineRead
      (ListTail.ne_more_nil_of_read? columnRead)
  have columnFurther :=
    ListTail.read?_append more Reader.stable_optionalWord columnRead
      (ListTail.ne_more_nil_of_readRequired kindRead)
  have kindFurther :=
    ListTail.readRequired_append more Reader.stable_text kindRead
      (ListTail.ne_more_nil_of_read? definitionRead)
  have definitionFurther :=
    ListTail.read?_append more Reader.stable_boolean definitionRead
      (ListTail.ne_more_nil_of_read? inferredRead)
  have inferredFurther :=
    ListTail.read?_append more (Reader.Stable.list Reader.stable_text)
      inferredRead
      (ListTail.ne_more_nil_of_close close)
  have closeFurther := ListTail.close_append more close
  rw [ListTail.append] at nameFurther
  simp only [readElements, nameFurther, lineFurther, columnFurther,
    kindFurther, definitionFurther, inferredFurther, closeFurther, bind,
    Except.bind, pure, Except.pure]

theorem readRecord_append
    (read : readRecord text = .ok (record, rest)) :
    readRecord (text ++ more) = .ok (record, rest ++ more) := by
  unfold readRecord at read
  split at read
  · rename_i heading
    rw [readRecord, skipSpaces_append_of_eq_cons heading]
    exact readElements_append more read
  · rename_i heading
    rw [readRecord, skipSpaces_append_of_eq_cons heading]
    exact readMembers_append more read
  · cases read

theorem stable_record : reader.Stable := by
  intro text rest record read _ more
  exact readRecord_append more read

end Records

/-! ## Whole texts -/

theorem readAll_eq_ok_iff
    {text : List Char} {records : List NameRecord} :
    readAll text = .ok records ↔
      ∃ rest, (Reader.list reader).read text = .ok (records, rest) ∧
        skipSpaces rest = [] := by
  constructor
  · intro read
    obtain ⟨⟨found, rest⟩, list, ended⟩ := exists_of_bind_ok read
    dsimp only at ended
    split at ended
    · rename_i nothing
      cases ended
      exact ⟨rest, list, nothing⟩
    · cases ended
  · rintro ⟨rest, list, nothing⟩
    rw [readAll, list]
    dsimp only [bind, Except.bind]
    rw [nothing]
    rfl

theorem skipSpaces_eq_nil_iff
    {text : List Char} :
    skipSpaces text = [] ↔
      ∀ character ∈ text, character ∈ [' ', '\n', '\t', '\r'] := by
  rw [skipSpaces, List.dropWhile_eq_nil_iff]
  simp only [isSpace_iff]

/-- What is put behind an accepted text is accepted with it just if it is white
space, and then the same records are read. -/
theorem readAll_append_iff
    {text : List Char} {records : List NameRecord}
    (read : readAll text = .ok records)
    (more : List Char) (others : List NameRecord) :
    readAll (text ++ more) = .ok others ↔
      (∀ character ∈ more, character ∈ [' ', '\n', '\t', '\r']) ∧
        others = records := by
  obtain ⟨rest, list, nothing⟩ := readAll_eq_ok_iff.mp read
  have further :
      (Reader.list reader).read (text ++ more) = .ok (records, rest ++ more) :=
    readList_append more stable_record list
  have blank := skipSpaces_eq_nil_iff.mp nothing
  constructor
  · intro accepted
    obtain ⟨left, otherList, otherNothing⟩ := readAll_eq_ok_iff.mp accepted
    rw [further] at otherList
    cases otherList
    have allBlank := skipSpaces_eq_nil_iff.mp otherNothing
    exact ⟨fun character member =>
      allBlank character (List.mem_append_right rest member), rfl⟩
  · rintro ⟨moreBlank, rfl⟩
    apply readAll_eq_ok_iff.mpr
    refine ⟨rest ++ more, further, skipSpaces_eq_nil_iff.mpr ?_⟩
    intro character member
    rcases List.mem_append.mp member with before | after
    · exact blank character before
    · exact moreBlank character after

/-- A line end behind a list of one record, and a comma behind it. -/
theorem readAll_reference_append_newline :
    let text :=
      "[\x7b\"name\":\"f\",\"line\":2,\"column\":0,\"type\":\"T\",\"is_definition\":false,\"inferred\":[]\x7d]".toList
    readAll text = .ok [reference "f" 2 0 "T"] ∧
      readAll (text ++ ['\n']) = .ok [reference "f" 2 0 "T"] ∧
      ∀ others, readAll (text ++ [',']) ≠ .ok others := by
  intro text
  have printed :
      (printAll [reference "f" 2 0 "T"]).toList = text := by
    decide
  have accepted := readAll_of_isForm (isForm_printAll [reference "f" 2 0 "T"])
  rw [printed] at accepted
  refine ⟨accepted, ?_, ?_⟩
  · have newlineIsBlank :
        ∀ character ∈ ['\n'], character ∈ [' ', '\n', '\t', '\r'] := by
      intro character isNewline
      rw [List.mem_singleton.mp isNewline]
      decide
    exact (readAll_append_iff accepted _ _).mpr ⟨newlineIsBlank, rfl⟩
  · intro others alsoAccepted
    obtain ⟨blank, _⟩ := (readAll_append_iff accepted _ _).mp alsoAccepted
    exact absurd (blank ',' (List.mem_singleton_self ',')) (by decide)

end NameRecord

end SemanticTokens
