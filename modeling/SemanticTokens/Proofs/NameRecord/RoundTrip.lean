import SemanticTokens.NameRecord.Printer
import SemanticTokens.NameRecord.Reader
import SemanticTokens.Proofs.Json.Forms

/-!
# Printed name records are read back

A printed record is a form of that record: its members are read one after the
other, each into its own field of a draft, until the closing bracket finds all
six fields read.  A printed list of records is then a form of the list, and a
text with nothing else in it.
-/

namespace SemanticTokens

open Json Text

namespace NameRecord

/-! ## Members of an object -/

/-- The key of a field with its colon, after a comma unless the member is the
first of its object. -/
def keyForm (first : Bool) (field : NameField) : List Char :=
  (if first then [] else [',']) ++ '"' :: field.key.toList ++ ['"', ':']

theorem ofKey?_key
    (field : NameField) :
    NameField.ofKey? field.key = some field := by
  cases field <;> decide

/-- No key needs an escape. -/
theorem flatMap_literalChar_key
    (field : NameField) :
    field.key.toList.flatMap literalChar = field.key.toList := by
  cases field <;> decide

theorem readString_key_append
    (field : NameField) (rest : List Char) :
    readString [] (field.key.toList ++ '"' :: rest) =
      .ok (field.key.toList, rest) := by
  have read :=
    readString_flatMap_literalChar_append field.key.toList [] rest
  rwa [flatMap_literalChar_key] at read

theorem nextMember_keyForm_append
    (first : Bool) (field : NameField) (rest : List Char) :
    nextMember first (keyForm first field ++ rest) =
      .ok (.key (field.key.toList ++ '"' :: ':' :: rest)) := by
  rw [keyForm, List.append_assoc, List.append_assoc, List.cons_append]
  cases first <;> rfl

section Members

variable {draft updated : NameDraft} {first : Bool}
variable {text start afterKey rest : List Char}

theorem readMembers_of_closed
    {record : NameRecord}
    (next : nextMember first text = .ok (.closed rest))
    (finished : draft.finish = .ok record) :
    readMembers draft first text = .ok (record, rest) := by
  rw [readMembers]
  split <;> simp_all

theorem readMembers_of_key
    {key : List Char}
    (next : nextMember first text = .ok (.key start))
    (keyRead : readString [] start = .ok (key, afterKey))
    (member :
      readMember draft (String.ofList key) afterKey = .ok (updated, rest)) :
    readMembers draft first text = readMembers updated false rest := by
  rw [readMembers]
  split
  case h_3 other found =>
    obtain rfl : other = start := by
      rw [found, Except.ok.injEq, NextMember.key.injEq] at next
      exact next
    split
    case h_2 otherKey otherAfter foundKey =>
      rw [keyRead, Except.ok.injEq, Prod.mk.injEq] at foundKey
      obtain ⟨rfl, rfl⟩ := foundKey
      split <;> simp_all
    all_goals simp_all
  all_goals simp_all

theorem readMember_of_isForm
    {field : NameField} {form : List Char}
    (isFree : draft.has field = false)
    (isForm : (draft.reader field).IsForm form updated)
    (stops : Stops continuesNumber rest) :
    readMember draft field.key (':' :: (form ++ rest)) =
      .ok (updated, rest) := by
  rw [readMember, ofKey?_key]
  dsimp only
  rw [isFree, if_neg Bool.false_ne_true]
  exact isForm.reads stops

/-- A member with the form of a value of its field is read into the draft. -/
theorem readMembers_keyForm_append
    {field : NameField} {form : List Char}
    (isFree : draft.has field = false)
    (isForm : (draft.reader field).IsForm form updated)
    (stops : Stops continuesNumber rest) :
    readMembers draft first (keyForm first field ++ (form ++ rest)) =
      readMembers updated false rest := by
  apply readMembers_of_key
    (nextMember_keyForm_append first field (form ++ rest))
    (readString_key_append field _)
  rw [String.ofList_toList]
  exact readMember_of_isForm isFree isForm stops

end Members

/-! ## Fields of a record -/

theorem toList_printList
    (items : List String) :
    (printList items).toList =
      '[' :: [','].intercalate (items.map String.toList) ++ [']'] := by
  rw [printList, String.toList_append, String.toList_append,
    String.toList_intercalate]
  rfl

theorem isForm_printWord
    (word : Option UInt32) :
    Reader.optionalWord.IsForm (printWord word).toList word := by
  cases word with
  | none =>
      exact Reader.isForm_null
  | some word =>
      rw [printWord, Nat.toString_eq_repr, Nat.toList_repr]
      exact Reader.isForm_toDigits word

theorem isForm_printList_literal
    (texts : List String) :
    (Reader.list Reader.text).IsForm
      (printList (texts.map Json.literal)).toList texts := by
  rw [toList_printList, List.map_map]
  exact Reader.IsForm.list fun text _ => Reader.isForm_literal text

def fieldForm (record : NameRecord) : NameField → List Char
  | .name => (Json.literal record.name).toList
  | .line => (printWord record.line).toList
  | .column => (printWord record.column).toList
  | .kind => (Json.literal record.kind).toList
  | .isDefinition => (if record.isDefinition then "true" else "false").toList
  | .inferred => (printList (record.inferred.map Json.literal)).toList

def memberForm
    (record : NameRecord) (first : Bool) (field : NameField) : List Char :=
  keyForm first field ++ record.fieldForm field

def fill (record : NameRecord) (draft : NameDraft) : NameField → NameDraft
  | .name => { draft with name := some record.name }
  | .line => { draft with line := some record.line }
  | .column => { draft with column := some record.column }
  | .kind => { draft with kind := some record.kind }
  | .isDefinition => { draft with isDefinition := some record.isDefinition }
  | .inferred => { draft with inferred := some record.inferred }

theorem has_fill_of_ne
    (record : NameRecord) (draft : NameDraft) {filled field : NameField}
    (different : filled ≠ field) :
    (record.fill draft filled).has field = draft.has field := by
  cases filled <;> cases field <;> first | rfl | exact (different rfl).elim

theorem isForm_fieldForm
    (record : NameRecord) (draft : NameDraft) (field : NameField) :
    (draft.reader field).IsForm (record.fieldForm field)
      (record.fill draft field) := by
  cases field with
  | name =>
      exact
        (Reader.isForm_literal record.name).map fun value =>
          { draft with name := some value }
  | line =>
      exact
        (isForm_printWord record.line).map fun value =>
          { draft with line := some value }
  | column =>
      exact
        (isForm_printWord record.column).map fun value =>
          { draft with column := some value }
  | kind =>
      exact
        (Reader.isForm_literal record.kind).map fun value =>
          { draft with kind := some value }
  | isDefinition =>
      exact
        (Reader.isForm_boolean record.isDefinition).map fun value =>
          { draft with isDefinition := some value }
  | inferred =>
      exact
        (isForm_printList_literal record.inferred).map fun value =>
          { draft with inferred := some value }

theorem stops_members_close
    (record : NameRecord) (fields : List NameField) (rest : List Char) :
    Stops continuesNumber
      (fields.flatMap (record.memberForm false) ++ '\x7d' :: rest) := by
  cases fields with
  | nil =>
      exact stops_cons _ (by decide) rest
  | cons field fields =>
      exact stops_cons _ (by decide) _

/-- Printed members with different keys fill the fields of a draft that has
none of them. -/
theorem readMembers_memberForms_append
    (record : NameRecord) {fields : List NameField} {draft : NameDraft}
    (different : fields.Nodup)
    (areFree : ∀ field ∈ fields, draft.has field = false)
    (rest : List Char) :
    readMembers draft false
        (fields.flatMap (record.memberForm false) ++ '\x7d' :: rest) =
      readMembers (fields.foldl record.fill draft) false
        ('\x7d' :: rest) := by
  induction fields generalizing draft with
  | nil =>
      rfl
  | cons field fields inductionHypothesis =>
      obtain ⟨notLater, laterDifferent⟩ := List.nodup_cons.mp different
      have laterFree :
          ∀ later ∈ fields, (record.fill draft field).has later = false := by
        intro later member
        rw [record.has_fill_of_ne draft
          (ne_of_mem_of_not_mem member notLater).symm]
        exact areFree later (List.mem_cons_of_mem field member)
      rw [List.flatMap_cons, memberForm, List.append_assoc,
        List.append_assoc,
        readMembers_keyForm_append (areFree field List.mem_cons_self)
          (record.isForm_fieldForm draft field)
          (record.stops_members_close fields rest),
        inductionHypothesis laterDifferent laterFree, List.foldl_cons]

/-! ## Records -/

theorem toList_print
    (record : NameRecord) :
    record.print.toList =
      '\x7b' :: (record.memberForm true .name ++
        ([.line, .column, .kind, .isDefinition, .inferred].flatMap
          (record.memberForm false) ++ ['\x7d'])) := by
  have name : "\x7b\"name\":".toList = '\x7b' :: keyForm true .name := by
    decide
  have line : ",\"line\":".toList = keyForm false .line := by
    decide
  have column : ",\"column\":".toList = keyForm false .column := by
    decide
  have kind : ",\"type\":".toList = keyForm false .kind := by
    decide
  have isDefinition :
      ",\"is_definition\":".toList = keyForm false .isDefinition := by
    decide
  have inferred : ",\"inferred\":".toList = keyForm false .inferred := by
    decide
  have close : "\x7d".toList = ['\x7d'] := by
    decide
  delta print
  simp only [String.toList_append, List.append_assoc, name, line, column,
    kind, isDefinition, inferred, close, List.cons_append, memberForm,
    fieldForm, List.flatMap_cons, List.flatMap_nil, List.append_nil]

theorem readMembers_print
    (record : NameRecord) (rest : List Char) :
    readMembers {} true
        (record.memberForm true .name ++
          ([.line, .column, .kind, .isDefinition, .inferred].flatMap
            (record.memberForm false) ++ '\x7d' :: rest)) =
      .ok (record, rest) := by
  rw [memberForm, List.append_assoc,
    readMembers_keyForm_append rfl (record.isForm_fieldForm {} .name)
      (record.stops_members_close _ rest),
    record.readMembers_memberForms_append (by decide)
      (by simp [fill, NameDraft.has])]
  exact readMembers_of_closed rfl rfl

theorem read_reader_brace
    (text : List Char) :
    reader.read ('\x7b' :: text) = readMembers {} true text :=
  rfl

theorem isForm_print
    (record : NameRecord) :
    reader.IsForm record.print.toList record := by
  rw [toList_print]
  constructor
  · exact ⟨'\x7b', _, rfl, by decide, by decide⟩
  · intro rest _
    rw [List.cons_append, read_reader_brace, List.append_assoc,
      List.append_assoc, List.singleton_append]
    exact record.readMembers_print rest

theorem isForm_printAll
    (records : List NameRecord) :
    (Reader.list reader).IsForm (printAll records).toList records := by
  rw [printAll, toList_printList, List.map_map]
  exact Reader.IsForm.list fun record _ => isForm_print record

/-! ## Whole texts -/

/-- A form of a list of records with nothing behind it is read as that list. -/
theorem readAll_of_isForm
    {form : List Char} {records : List NameRecord}
    (isForm : (Reader.list reader).IsForm form records) :
    readAll form = .ok records := by
  have stops : Stops continuesNumber [] := nofun
  have read := isForm.reads stops
  rw [List.append_nil] at read
  rw [readAll, read]
  rfl

/-- A list of records is read back from its printed text, whatever characters
stand in its names and kinds. -/
theorem readAll_printAll
    (records : List NameRecord) :
    readAll (printAll records).toList = .ok records :=
  readAll_of_isForm (isForm_printAll records)

end NameRecord

end SemanticTokens
