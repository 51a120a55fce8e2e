import SemanticTokens.Proofs.NameRecord.Drafts
import SemanticTokens.Proofs.NameRecord.Prefixes

/-!
# Which objects are name records

An object is accepted just if each field of a record is given at most once and
by a value of its kind, and name and kind are given.  It is then read as the
record of those values, with the defaults for what is missing.  Members with
other keys are skipped, whatever their values.
-/

namespace SemanticTokens

open Json Text

namespace NameRecord

/-! ## Reading members -/

theorem nextMember_leads_append
    {first : Bool} {lead text rest : List Char}
    (leads : Leads first lead) (heading : skipSpaces text = '"' :: rest) :
    nextMember first (lead ++ text) = .ok (.key rest) := by
  cases leads with
  | first =>
      rw [List.nil_append, nextMember, heading]
      rfl
  | comma isBlank =>
      rw [List.append_assoc, List.singleton_append, nextMember,
        skipSpaces_blank_cons isBlank (by decide)]
      simp [heading]

theorem nextMember_blank_close
    (first : Bool) {blank : List Char} (isBlank : Blank blank)
    (rest : List Char) :
    nextMember first (blank ++ '\x7d' :: rest) = .ok (.closed rest) := by
  rw [nextMember, skipSpaces_blank_cons isBlank (by decide)]
  rfl

section Members

variable {draft updated : NameDraft} {record : NameRecord}
variable {first : Bool} {key : String} {value : Value}
variable {text start afterKey rest after : List Char}

theorem readMember_form_append_iff
    {beforeColon beforeValue form : List Char}
    (isBeforeColon : Blank beforeColon) (isBeforeValue : Blank beforeValue)
    (isForm : ValueForm value form) (stops : Stops continuesNumber rest) :
    readMember draft key
        (beforeColon ++ ':' :: (beforeValue ++ (form ++ rest))) =
        .ok (updated, after) ↔
      draft.TakesMember (key, value) updated ∧ after = rest := by
  have colon :=
    skipColon_blank_append isBeforeColon
      (beforeValue ++ (form ++ rest))
  rw [readMember, NameDraft.TakesMember]
  cases NameField.ofKey? key with
  | none =>
      have skipped :=
        skipValue_blank_form_append isBeforeValue isForm stops
      dsimp only
      rw [colon]
      change Except.bind (skipValue _) _ = _ ↔ _
      rw [skipped]
      change Except.ok (draft, rest) = _ ↔ _
      rw [Except.ok.injEq, Prod.mk.injEq]
      exact and_congr eq_comm eq_comm
  | some field =>
      have told := NameDraft.tells_reader draft field value isForm stops
      dsimp only
      rw [colon]
      change (if draft.has field = true then _
        else (draft.reader field).read (beforeValue ++ (form ++ rest))) = _ ↔ _
      rw [NameDraft.skipsBlank_reader draft field isBeforeValue]
      split
      · rename_i occupied
        constructor
        · intro read
          cases read
        · rintro ⟨⟨isFree, -⟩, -⟩
          rw [occupied] at isFree
          cases isFree
      · rename_i isFree
        rw [told, Bool.eq_false_iff]
        exact and_congr_left fun _ => (and_iff_right isFree).symm

theorem readMembers_closed_iff
    (next : nextMember first text = .ok (.closed rest)) :
    readMembers draft first text = .ok (record, after) ↔
      draft.finish = .ok record ∧ after = rest := by
  cases finished : draft.finish with
  | ok found =>
      rw [readMembers_of_closed next finished]
      simp only [Except.ok.injEq, Prod.mk.injEq]
      exact and_congr_right fun _ => eq_comm
  | error cause =>
      constructor
      · intro read
        rw [readMembers] at read
        split at read <;> simp_all
      · rintro ⟨failed, -⟩
        cases failed

theorem readMembers_of_member_error
    {characters : List Char} {fault : Fault}
    (next : nextMember first text = .ok (.key start))
    (keyRead : readString [] start = .ok (characters, afterKey))
    (failed :
      readMember draft (String.ofList characters) afterKey = .error fault) :
    readMembers draft first text = .error fault := by
  rw [readMembers]
  split
  case h_3 other found =>
    obtain rfl : other = start := by
      rw [found, Except.ok.injEq, NextMember.key.injEq] at next
      exact next
    split
    case h_2 otherKey otherAfter foundKey =>
      rw [keyRead, Except.ok.injEq, Prod.mk.injEq] at foundKey
      obtain ⟨rfl, rfl⟩ := foundKey
      split <;> simp_all
    all_goals simp_all
  all_goals simp_all

theorem readMembers_key_iff
    {characters : List Char}
    (next : nextMember first text = .ok (.key start))
    (keyRead : readString [] start = .ok (characters, afterKey)) :
    readMembers draft first text = .ok (record, after) ↔
      ∃ updated rest,
        readMember draft (String.ofList characters) afterKey =
          .ok (updated, rest) ∧
        readMembers updated false rest = .ok (record, after) := by
  cases member : readMember draft (String.ofList characters) afterKey with
  | ok result =>
      obtain ⟨updated, rest⟩ := result
      rw [readMembers_of_key next keyRead member]
      constructor
      · intro read
        exact ⟨updated, rest, rfl, read⟩
      · rintro ⟨_, _, same, read⟩
        cases same
        exact read
  | error fault =>
      rw [readMembers_of_member_error next keyRead member]
      constructor
      · intro read
        cases read
      · rintro ⟨_, _, same, _⟩
        cases same

/-- A member is read, and then those behind it. -/
theorem readMembers_form_append_iff
    {member : String × Value} {lead before form : List Char}
    (leads : Leads first lead) (isBefore : Blank before)
    (isForm : MemberForm ValueForm member form)
    (stops : Stops continuesNumber rest) :
    readMembers draft first (lead ++ (before ++ (form ++ rest))) =
        .ok (record, after) ↔
      ∃ updated, draft.TakesMember member updated ∧
        readMembers updated false rest = .ok (record, after) := by
  obtain @⟨key, value, keyForm, beforeColon, beforeValue, valueForm, quoted,
    isBeforeColon, isBeforeValue, isValue⟩ := isForm
  obtain @⟨characters, areForms⟩ := quoted
  have heading :=
    skipSpaces_blank_cons isBefore (by decide : isSpace '"' = false)
      (characters ++ '"' :: (beforeColon ++ ':' ::
        (beforeValue ++ (valueForm ++ rest))))
  have next := nextMember_leads_append leads heading
  have keyRead :=
    readString_charsForm_append areForms []
      (beforeColon ++ ':' :: (beforeValue ++ (valueForm ++ rest)))
  simp only [List.append_assoc, List.cons_append, List.nil_append]
  rw [readMembers_key_iff next keyRead]
  rw [List.reverse_nil, List.nil_append, String.ofList_toList]
  constructor
  · rintro ⟨updated, left, read, further⟩
    obtain ⟨takes, rfl⟩ :=
      (readMember_form_append_iff isBeforeColon isBeforeValue isValue
        stops).mp read
    exact ⟨updated, takes, further⟩
  · rintro ⟨updated, takes, further⟩
    exact ⟨updated, rest,
      (readMember_form_append_iff isBeforeColon isBeforeValue isValue
        stops).mpr ⟨takes, rfl⟩, further⟩

/-- An object is read as what its members make of a draft. -/
theorem readMembers_separated_iff
    {members : List (String × Value)} {forms lead : List Char}
    (separated : Separated (MemberForm ValueForm) members forms)
    (leads : Leads first lead) :
    readMembers draft first (lead ++ (forms ++ '\x7d' :: rest)) =
        .ok (record, after) ↔
      (∃ final, draft.TakesMembers members final ∧
        final.finish = .ok record) ∧ after = rest := by
  induction separated generalizing draft first lead with
  | @one member before form behind isBefore isForm isBehind =>
      have noNumber : continuesNumber '\x7d' = false := by
        decide
      have stops := stops_blank_cons isBehind noNumber rest
      have closed := nextMember_blank_close false isBehind rest
      simp only [List.append_assoc]
      rw [readMembers_form_append_iff leads isBefore isForm stops]
      constructor
      · rintro ⟨updated, takes, read⟩
        obtain ⟨finished, same⟩ := (readMembers_closed_iff closed).mp read
        exact ⟨⟨updated, .cons takes .nil, finished⟩, same⟩
      · rintro ⟨⟨final, takesMembers, finished⟩, same⟩
        obtain ⟨updated, takes, nothing⟩ :=
          NameDraft.takesMembers_cons_iff.mp takesMembers
        cases nothing
        exact ⟨final, takes,
          (readMembers_closed_iff closed).mpr ⟨finished, same⟩⟩
  | @more member members before form behind forms isBefore isForm isBehind _
      inductionHypothesis =>
      have noNumber : continuesNumber ',' = false := by
        decide
      have stops :=
        stops_blank_cons isBehind noNumber (forms ++ '\x7d' :: rest)
      have further (updated : NameDraft) :=
        @inductionHypothesis updated false (behind ++ [','])
          (.comma isBehind)
      simp only [List.append_assoc, List.cons_append, List.nil_append]
        at further ⊢
      rw [readMembers_form_append_iff leads isBefore isForm stops]
      constructor
      · rintro ⟨updated, takes, read⟩
        obtain ⟨⟨final, takesMembers, finished⟩, same⟩ :=
          (further updated).mp read
        exact ⟨⟨final, .cons takes takesMembers, finished⟩, same⟩
      · rintro ⟨⟨final, takesMembers, finished⟩, same⟩
        obtain ⟨updated, takes, takesOthers⟩ :=
          NameDraft.takesMembers_cons_iff.mp takesMembers
        exact ⟨updated, takes,
          (further updated).mpr ⟨⟨final, takesOthers, finished⟩, same⟩⟩

end Members

theorem tells_object
    (members : List (String × Value)) :
    reader.Tells (.object members) fun record =>
      ∃ final, NameDraft.TakesMembers {} members final ∧
        final.finish = .ok record := by
  intro form rest isForm stops record after
  cases isForm with
  | object enclosed =>
      cases enclosed with
      | empty isBlank =>
          have closed := nextMember_blank_close true isBlank rest
          rw [List.cons_append, List.append_assoc, List.singleton_append,
            read_reader_brace, readMembers_closed_iff closed]
          constructor
          · rintro ⟨finished, same⟩
            exact ⟨⟨{}, .nil, finished⟩, same⟩
          · rintro ⟨⟨final, nothing, finished⟩, same⟩
            cases nothing
            exact ⟨finished, same⟩
      | @items _ forms separated =>
          rw [List.cons_append, List.append_assoc, List.singleton_append,
            read_reader_brace]
          exact readMembers_separated_iff separated .first

/-! ## Records -/

/-- Whether values are the one that stands for some content, or none where the
content is the default. -/
def StandsFor
    {α : Type} (form : α → Value) (default content : α)
    (values : List Value) : Prop :=
  values = [form content] ∨ values = [] ∧ content = default

/-- Whether an object with the given members stands for a record.  A name and a
kind must be given; everything else may be missing. -/
structure Describes
    (members : List (String × Value)) (record : NameRecord) : Prop where
  name : valuesOf "name" members = [.string record.name]
  line : StandsFor .ofWord none record.line (valuesOf "line" members)
  column : StandsFor .ofWord none record.column (valuesOf "column" members)
  kind : valuesOf "type" members = [.string record.kind]
  isDefinition :
    StandsFor .boolean false record.isDefinition
      (valuesOf "is_definition" members)
  inferred :
    StandsFor (fun texts => .list (texts.map .string)) [] record.inferred
      (valuesOf "inferred" members)

theorem standsFor_iff
    {α : Type} {form : α → Value} {default content : α}
    {values : List Value} :
    StandsFor form default content values ↔
      ∃ read : Option α, (read.map form).toList = values ∧
        read.getD default = content := by
  constructor
  · rintro (rfl | ⟨rfl, rfl⟩)
    · exact ⟨some content, rfl, rfl⟩
    · exact ⟨none, rfl, rfl⟩
  · rintro ⟨read, rfl, rfl⟩
    cases read with
    | none =>
        exact .inr ⟨rfl, rfl⟩
    | some content =>
        exact .inl rfl

theorem describes_iff
    {members : List (String × Value)} {record : NameRecord} :
    Describes members record ↔
      ∃ final, NameDraft.TakesMembers {} members final ∧
        final.finish = .ok record := by
  simp only [NameDraft.takesMembers_iff, NameDraft.value?_empty,
    Option.toList_none, List.nil_append]
  constructor
  · intro describes
    obtain ⟨line, lineValues, lineContent⟩ :=
      standsFor_iff.mp describes.line
    obtain ⟨column, columnValues, columnContent⟩ :=
      standsFor_iff.mp describes.column
    obtain ⟨isDefinition, definitionValues, definitionContent⟩ :=
      standsFor_iff.mp describes.isDefinition
    obtain ⟨inferred, inferredValues, inferredContent⟩ :=
      standsFor_iff.mp describes.inferred
    refine ⟨⟨record.name, line, column, record.kind, isDefinition,
      inferred⟩, ?_, ?_⟩
    · intro field
      cases field with
      | name =>
          exact describes.name.symm
      | line =>
          exact lineValues
      | column =>
          exact columnValues
      | kind =>
          exact describes.kind.symm
      | isDefinition =>
          exact definitionValues
      | inferred =>
          exact inferredValues
    · rw [NameDraft.finish]
      dsimp only
      rw [NameDraft.record, lineContent, columnContent, definitionContent,
        inferredContent]
  · rintro ⟨final, values, finished⟩
    obtain ⟨name, kind, hasName, hasKind, rfl⟩ :=
      NameDraft.finish_eq_ok_iff.mp finished
    have nameValues := values .name
    have kindValues := values .kind
    rw [NameDraft.value?, hasName] at nameValues
    rw [NameDraft.value?, hasKind] at kindValues
    exact
      { name := nameValues.symm
        line := standsFor_iff.mpr ⟨final.line, values .line, rfl⟩
        column := standsFor_iff.mpr ⟨final.column, values .column, rfl⟩
        kind := kindValues.symm
        isDefinition :=
          standsFor_iff.mpr ⟨final.isDefinition, values .isDefinition, rfl⟩
        inferred :=
          standsFor_iff.mpr ⟨final.inferred, values .inferred, rfl⟩ }

/-! ## Whole texts -/

theorem readAll_form_iff
    {value : Value} {Fits : List NameRecord → Prop}
    (tells : (Reader.list reader).Tells value Fits)
    {before form after : List Char} (isForm : ValueForm value form)
    (isBefore : Blank before) (isAfter : Blank after)
    (records : List NameRecord) :
    readAll (before ++ (form ++ after)) = .ok records ↔ Fits records := by
  have stops : Stops continuesNumber after := by
    have nothing : Stops continuesNumber [] := nofun
    rw [← List.append_nil after]
    exact stops_blank_append isAfter nothing
  have told := tells isForm stops
  rw [readAll_eq_ok_iff]
  constructor
  · rintro ⟨rest, list, -⟩
    rw [Reader.skipsBlank_list isBefore, told] at list
    exact list.1
  · intro fits
    refine ⟨after, ?_, skipSpaces_eq_nil_iff.mpr isAfter⟩
    rw [Reader.skipsBlank_list isBefore, told]
    exact ⟨fits, rfl⟩

/-- Members with other keys make no difference, and neither does the order of
members of different fields. -/
theorem describes_congr
    {members others : List (String × Value)}
    (same : ∀ field : NameField,
      valuesOf field.key others = valuesOf field.key members)
    (record : NameRecord) :
    Describes others record ↔ Describes members record := by
  rw [describes_iff, describes_iff]
  simp only [NameDraft.takesMembers_iff, same]

theorem tells_list_objects
    (objects : List (List (String × Value))) :
    (Reader.list reader).Tells (.list (objects.map .object))
      (List.Forall₂ Describes objects) := by
  have same (members : List (String × Value)) (record : NameRecord) :
      (∃ others, Value.object members = .object others ∧
        Describes others record) ↔ Describes members record := by
    constructor
    · rintro ⟨_, sameObject, describes⟩
      rwa [Value.object.inj sameObject]
    · intro describes
      exact ⟨members, rfl, describes⟩
  have tells :
      ∀ value ∈ objects.map Value.object, reader.Tells value fun record =>
        ∃ members, value = .object members ∧ Describes members record := by
    intro value member
    obtain ⟨members, -, rfl⟩ := List.mem_map.mp member
    apply (tells_object members).congr
    intro record
    rw [same, describes_iff]
  apply (Reader.tells_list tells).congr
  intro records
  rw [List.forall₂_map_left_iff]
  simp only [same]

theorem forall₂_singleton_iff
    {α β : Type} {Relation : α → β → Prop} {left : α} {list : List β} :
    List.Forall₂ Relation [left] list ↔
      ∃ right, Relation left right ∧ list = [right] := by
  rw [List.forall₂_cons_left_iff]
  constructor
  · rintro ⟨right, others, related, nothing, rfl⟩
    cases nothing
    exact ⟨right, related, rfl⟩
  · rintro ⟨right, related, rfl⟩
    exact ⟨right, [], related, .nil, rfl⟩

/-- One object is accepted just if it describes a record, which is then the
one that is read, and only the values of the fields make a difference. -/
theorem readAll_object_iff
    {members : List (String × Value)} {before text after : List Char}
    (form : ValueForm (.list [.object members]) text)
    (isBefore : Blank before) (isAfter : Blank after) :
    (∀ records, readAll (before ++ (text ++ after)) = .ok records ↔
      ∃ record, Describes members record ∧ records = [record]) ∧
    ∀ {others : List (String × Value)} {otherText : List Char},
      ValueForm (.list [.object others]) otherText →
      (∀ field : NameField,
        valuesOf field.key others = valuesOf field.key members) →
      ∀ records, readAll (before ++ (otherText ++ after)) = .ok records ↔
        readAll (before ++ (text ++ after)) = .ok records := by
  have accepted {given : List (String × Value)} {givenText : List Char}
      (givenForm : ValueForm (.list [.object given]) givenText)
      (records : List NameRecord) :
      readAll (before ++ (givenText ++ after)) = .ok records ↔
        ∃ record, Describes given record ∧ records = [record] := by
    rw [readAll_form_iff (tells_list_objects [given]) givenForm isBefore
      isAfter, forall₂_singleton_iff]
  refine ⟨accepted form, ?_⟩
  intro others otherText otherForm same records
  rw [accepted otherForm, accepted form]
  simp only [describes_congr same]

/-- A key that is written with an escape, behind a key that no field has, and the
same object without either. -/
theorem readAll_object_with_escaped_key :
    readAll " [\x7b\"x\":\x7b\"type\":0\x7d,\"n\\u0061me\":\"f\",\"type\":\"T\"\x7d]\n".toList =
        .ok [{ name := "f", kind := "T" }] ∧
      readAll " [\x7b\"type\":\"T\",\"name\":\"f\"\x7d]\n".toList =
        .ok [{ name := "f", kind := "T" }] := by
  have nothing : Blank [] := nofun
  have space : Blank [' '] := by
    decide
  have newline : Blank ['\n'] := by
    decide
  have plain {key : String}
      (arePlain : key.toList.all isPlain = true) :
      StringForm key ('"' :: (key.toList ++ ['"'])) :=
    .quoted (.of_plain arePlain)
  have zero : HexDigitForm 0 '0' := .small (by decide)
  have one : HexDigitForm 1 '1' := .small (by decide)
  have six : HexDigitForm 6 '6' := .small (by decide)
  have escaped : CharForm 'a' ['\\', 'u', '0', '0', '6', '1'] :=
    .unit (.digits zero zero six one)
  have name :
      CharsForm "name".toList
        ['n', '\\', 'u', '0', '0', '6', '1', 'm', 'e'] := by
    have characters : "name".toList = ['n', 'a', 'm', 'e'] := by
      decide
    rw [characters]
    exact
      .cons (.plain (by decide) (by decide) (by decide))
        (.cons escaped (.of_plain (by decide)))
  have number : NumeralForm ['0'] :=
    @NumeralForm.parts [] ['0'] [] [] (by decide) .zero .none .none
  have unknown : ValueForm (.object [("type", .number ['0'])]) _ :=
    .object (.items (.one nothing
      (.member (plain (by decide)) nothing nothing (.number number))
      nothing))
  have object :
      ValueForm (.object [("x", .object [("type", .number ['0'])]),
        ("name", .string "f"), ("type", .string "T")]) _ :=
    .object (.items
      (.more nothing
        (.member (plain (by decide)) nothing nothing unknown) nothing
        (.more nothing
          (.member (.quoted name) nothing nothing
            (.string (plain (by decide)))) nothing
          (.one nothing
            (.member (plain (by decide)) nothing nothing
              (.string (plain (by decide)))) nothing))))
  have form :
      ValueForm (.list [.object [("x", .object [("type", .number ['0'])]),
        ("name", .string "f"), ("type", .string "T")]]) _ :=
    .list (.items (.one nothing object nothing))
  have otherForm :
      ValueForm (.list [.object [("type", .string "T"),
        ("name", .string "f")]]) _ :=
    .list (.items (.one nothing
      (.object (.items
        (.more nothing
          (.member (plain (by decide)) nothing nothing
            (.string (plain (by decide)))) nothing
          (.one nothing
            (.member (plain (by decide)) nothing nothing
              (.string (plain (by decide)))) nothing)))) nothing))
  have describes :
      Describes [("x", .object [("type", .number ['0'])]),
        ("name", .string "f"), ("type", .string "T")]
        { name := "f", kind := "T" } :=
    ⟨rfl, .inr ⟨rfl, rfl⟩, .inr ⟨rfl, rfl⟩, rfl, .inr ⟨rfl, rfl⟩,
      .inr ⟨rfl, rfl⟩⟩
  have same (field : NameField) :
      valuesOf field.key [("type", .string "T"), ("name", .string "f")] =
        valuesOf field.key [("x", .object [("type", .number ['0'])]),
          ("name", .string "f"), ("type", .string "T")] := by
    cases field <;> rfl
  obtain ⟨acceptance, irrelevance⟩ := readAll_object_iff form space newline
  have accepted := (acceptance _).mpr ⟨_, describes, rfl⟩
  constructor
  · refine Eq.trans (congrArg readAll ?_) accepted
    decide
  · have otherAccepted := (irrelevance otherForm same _).mpr accepted
    refine Eq.trans (congrArg readAll ?_) otherAccepted
    decide

end NameRecord

end SemanticTokens
