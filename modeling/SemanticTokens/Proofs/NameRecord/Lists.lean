import SemanticTokens.Proofs.NameRecord.Objects

/-!
# Which lists are name records

In a list, the fields of a record stand in their order, and the list may end
after the kind, whatever is missing then being the default.  A list of this
length is accepted just if the object of the same values is, and it is read as
the same record.  A shorter list or a longer one is no record.
-/

namespace SemanticTokens

open Json Text

namespace NameRecord

/-! ## Lists read element by element -/

theorem closeList_eq_ok_iff
    {text rest : List Char} :
    closeList text = .ok rest ↔ skipSpaces text = ']' :: rest := by
  unfold closeList
  split
  · rename_i heading
    simp [heading]
  · rename_i heading
    simp [heading]
  · rename_i heading
    rw [heading]
    split <;> simp
  · rename_i noClosing _
    constructor
    · intro closed
      cases closed
    · intro heading
      exact (noClosing rest heading).elim

namespace ListTail

/-- Whether what is left of a list has just the given elements, and then the
rest of the text. -/
inductive Holds (rest : List Char) : Bool → ListTail → List Value → Prop
  | closed {first : Bool} :
      Holds rest first (.closed rest) []
  | empty {first : Bool} {blank : List Char} :
      Blank blank → Holds rest first (.more (blank ++ ']' :: rest)) []
  | items {first : Bool} {lead forms : List Char} {elements : List Value} :
      Leads first lead → Separated ValueForm elements forms →
      Holds rest first (.more (lead ++ (forms ++ ']' :: rest))) elements

section Reading

variable {α : Type} {item : Reader α} {form : α → Value}
variable {first : Bool} {tail : ListTail} {elements : List Value}
variable {value : Value} {rest : List Char}

theorem read?_form_append_iff
    (tells : item.Tells value fun content => value = form content)
    {lead before valueForm : List Char} (leads : Leads first lead)
    (isBefore : Blank before) (isForm : ValueForm value valueForm)
    (stops : Stops continuesNumber rest)
    (taken : Option α) (after : ListTail) :
    (more (lead ++ (before ++ (valueForm ++ rest)))).read? item first =
        .ok (taken, after) ↔
      taken.map form = some value ∧ after = more rest := by
  have told := tells isForm stops
  obtain ⟨character, others, rfl, opens⟩ := isForm.exists_cons
  have next :=
    nextElement_leads_append leads
      (skipSpaces_blank_cons isBefore opens.ne.1 (others ++ rest))
      opens.ne.2.2.1
  rw [List.cons_append] at told ⊢
  rw [read?, next, Option.map_eq_some_iff]
  dsimp only
  cases read : item.read (character :: (others ++ rest)) with
  | error fault =>
      constructor
      · intro accepted
        cases accepted
      · rintro ⟨⟨content, -, same⟩, -⟩
        rw [(told content rest).mpr ⟨same.symm, rfl⟩] at read
        cases read
  | ok result =>
      obtain ⟨content, left⟩ := result
      obtain ⟨same, rfl⟩ := (told content left).mp read
      constructor
      · intro accepted
        cases accepted
        exact ⟨⟨content, rfl, same.symm⟩, rfl⟩
      · rintro ⟨⟨other, rfl, otherSame⟩, rfl⟩
        rw [(told other left).mpr ⟨otherSame.symm, rfl⟩] at read
        cases read
        rfl

/-- One element is read, or none where the list ends. -/
theorem Holds.read?_iff
    (tells : ∀ value, item.Tells value fun content => value = form content)
    (holds : Holds rest first tail elements) :
    ∃ next, Holds rest false next elements.tail ∧
      ∀ taken after, tail.read? item first = .ok (taken, after) ↔
        taken.map form = elements.head? ∧ after = next := by
  have ended (taken : Option α) (after : ListTail) :
      Except.ok (none, .closed rest) = (.ok (taken, after) : Except Fault _) ↔
        taken.map form = none ∧ after = .closed rest := by
    rw [Except.ok.injEq, Prod.mk.injEq, Option.map_eq_none_iff]
    exact and_congr eq_comm eq_comm
  cases holds with
  | closed =>
      exact ⟨.closed rest, .closed, ended⟩
  | empty isBlank =>
      refine ⟨.closed rest, .closed, ?_⟩
      intro taken after
      rw [read?, nextElement_blank_close first isBlank]
      exact ended taken after
  | items leads separated =>
      cases separated with
      | @one value before valueForm behind isBefore isForm isBehind =>
          have noNumber : continuesNumber ']' = false := by
            decide
          have stops := stops_blank_cons isBehind noNumber rest
          refine ⟨_, .empty isBehind, ?_⟩
          intro taken after
          simp only [List.append_assoc]
          exact
            read?_form_append_iff (tells value) leads isBefore isForm stops
              taken after
      | @more value others before valueForm behind forms isBefore isForm
          isBehind separated =>
          have noNumber : continuesNumber ',' = false := by
            decide
          have stops :=
            stops_blank_cons isBehind noNumber (forms ++ ']' :: rest)
          refine ⟨_, .items (.comma isBehind) separated, ?_⟩
          intro taken after
          simp only [List.append_assoc, List.cons_append, List.nil_append]
          exact
            read?_form_append_iff (tells value) leads isBefore isForm stops
              taken after

theorem Holds.readRequired_iff
    (tells : ∀ value, item.Tells value fun content => value = form content)
    {before : Nat} (holds : Holds rest (before = 0) tail elements) :
    ∃ next, Holds rest false next elements.tail ∧
      ∀ content after, tail.readRequired item before = .ok (content, after) ↔
        some (form content) = elements.head? ∧ after = next := by
  obtain ⟨next, nextHolds, read⟩ := holds.read?_iff tells
  refine ⟨next, nextHolds, ?_⟩
  intro content after
  have readSome := read (some content) after
  rw [Option.map_some] at readSome
  rw [← readSome, readRequired]
  split
  · rename_i failed
    simp [failed]
  · rename_i nothing
    simp [nothing]
  · rename_i found
    simp [found]

theorem Holds.close_iff
    (holds : Holds rest false tail elements) (after : List Char) :
    tail.close = .ok after ↔ elements = [] ∧ after = rest := by
  cases holds with
  | closed =>
      rw [close, Except.ok.injEq]
      exact ⟨fun same => ⟨rfl, same.symm⟩, fun same => same.2.symm⟩
  | empty isBlank =>
      rw [close, closeList_eq_ok_iff,
        skipSpaces_blank_cons isBlank (by decide)]
      simp [eq_comm]
  | items leads separated =>
      cases leads with
      | comma isBlank =>
          rw [close, closeList_eq_ok_iff, List.append_assoc,
            List.singleton_append, skipSpaces_blank_cons isBlank (by decide)]
          cases separated <;> simp

end Reading

end ListTail

/-! ## Elements of a record -/

/-- The members of the object that gives its fields in the order of a list. -/
def keyed (elements : List Value) : List (String × Value) :=
  (NameField.all.map NameField.key).zip elements

/-- Whether a list with the given elements stands for a record.  It may end
after the kind if what is missing has its default. -/
inductive DescribesInOrder : List Value → NameRecord → Prop
  | four {record : NameRecord} :
      record.isDefinition = false → record.inferred = [] →
      DescribesInOrder
        [.string record.name, .ofWord record.line, .ofWord record.column,
          .string record.kind]
        record
  | five {record : NameRecord} :
      record.inferred = [] →
      DescribesInOrder
        [.string record.name, .ofWord record.line, .ofWord record.column,
          .string record.kind, .boolean record.isDefinition]
        record
  | six {record : NameRecord} :
      DescribesInOrder
        [.string record.name, .ofWord record.line, .ofWord record.column,
          .string record.kind, .boolean record.isDefinition,
          .list (record.inferred.map .string)]
        record

theorem DescribesInOrder.length_bounds
    {elements : List Value} {record : NameRecord}
    (describes : DescribesInOrder elements record) :
    4 ≤ elements.length ∧ elements.length ≤ 6 := by
  cases describes with
  | four _ _ | five _ | six =>
      simp

/-- In an object of values in the order of their keys, each key is given at
most once. -/
theorem valuesOf_zip
    {keys : List String} (nodup : keys.Nodup) {key : String} {index : Nat}
    (found : keys[index]? = some key) (values : List Value) :
    valuesOf key (keys.zip values) = values[index]?.toList := by
  induction keys generalizing index values with
  | nil =>
      cases found
  | cons other keys inductionHypothesis =>
      obtain ⟨isNew, othersNodup⟩ := List.nodup_cons.mp nodup
      cases values with
      | nil =>
          rfl
      | cons value values =>
          rw [List.zip_cons_cons]
          cases index with
          | zero =>
              cases found
              have noOther : valuesOf key (keys.zip values) = [] := by
                rw [valuesOf, List.map_eq_nil_iff, List.filter_eq_nil_iff]
                intro member among isSame
                obtain rfl := beq_iff_eq.mp isSame
                exact isNew (List.of_mem_zip among).1
              rw [valuesOf_cons_self, noOther]
              rfl
          | succ index =>
              rw [List.getElem?_cons_succ] at found
              have different : other ≠ key := by
                rintro rfl
                exact isNew (List.mem_of_getElem? found)
              rw [valuesOf_cons_of_ne different,
                inductionHypothesis othersNodup found,
                List.getElem?_cons_succ]

theorem valuesOf_keyed
    (field : NameField) (elements : List Value) :
    valuesOf field.key (keyed elements) =
      elements[NameField.all.idxOf field]?.toList := by
  have nodup : (NameField.all.map NameField.key).Nodup := by
    decide
  apply valuesOf_zip nodup
  cases field <;> rfl

/-- The object of the values of a list describes what a draft with these values
ends as. -/
theorem describes_keyed_iff
    {elements : List Value} {record : NameRecord} :
    Describes (keyed elements) record ↔
      ∃ final : NameDraft,
        (∀ field,
          final.value? field = elements[NameField.all.idxOf field]?) ∧
        final.finish = .ok record := by
  rw [describes_iff]
  simp only [NameDraft.takesMembers_iff, NameDraft.value?_empty,
    Option.toList_none, List.nil_append, valuesOf_keyed,
    NameDraft.toList_injective.eq_iff]

/-- The elements of a list are read as the object of the same values is. -/
theorem ListTail.Holds.readElements_iff
    {text rest : List Char} {elements : List Value}
    (holds : ListTail.Holds rest true (.more text) elements)
    (record : NameRecord) (after : List Char) :
    readElements text = .ok (record, after) ↔
      (elements.length ≤ 6 ∧ Describes (keyed elements) record) ∧
        after = rest := by
  obtain ⟨afterName, nameHolds, nameRead⟩ :=
    @readRequired_iff _ _ _ _ _ _ Reader.tells_text 0 holds
  obtain ⟨afterLine, lineHolds, lineRead⟩ :=
    nameHolds.read?_iff Reader.tells_optionalWord
  obtain ⟨afterColumn, columnHolds, columnRead⟩ :=
    lineHolds.read?_iff Reader.tells_optionalWord
  obtain ⟨afterKind, kindHolds, kindRead⟩ :=
    @readRequired_iff _ _ _ _ _ _ Reader.tells_text 3 columnHolds
  obtain ⟨afterDefinition, definitionHolds, definitionRead⟩ :=
    kindHolds.read?_iff Reader.tells_boolean
  obtain ⟨afterInferred, inferredHolds, inferredRead⟩ :=
    definitionHolds.read?_iff Reader.tells_list_text
  have closeRead := inferredHolds.close_iff
  -- Each part reads the element at the place of its field.
  rw [List.head?_eq_getElem?] at nameRead
  simp only [← List.drop_one, List.drop_drop, List.head?_drop,
    List.drop_eq_nil_iff, Nat.reduceAdd]
    at lineRead columnRead kindRead definitionRead inferredRead closeRead
  rw [describes_keyed_iff]
  constructor
  · intro read
    obtain ⟨⟨name, _⟩, nameTaken, read⟩ := exists_of_bind_ok read
    obtain ⟨nameIs, rfl⟩ := (nameRead _ _).mp nameTaken
    obtain ⟨⟨line, _⟩, lineTaken, read⟩ := exists_of_bind_ok read
    obtain ⟨lineIs, rfl⟩ := (lineRead _ _).mp lineTaken
    obtain ⟨⟨column, _⟩, columnTaken, read⟩ := exists_of_bind_ok read
    obtain ⟨columnIs, rfl⟩ := (columnRead _ _).mp columnTaken
    obtain ⟨⟨kind, _⟩, kindTaken, read⟩ := exists_of_bind_ok read
    obtain ⟨kindIs, rfl⟩ := (kindRead _ _).mp kindTaken
    obtain ⟨⟨isDefinition, _⟩, definitionTaken, read⟩ :=
      exists_of_bind_ok read
    obtain ⟨definitionIs, rfl⟩ := (definitionRead _ _).mp definitionTaken
    obtain ⟨⟨inferred, _⟩, inferredTaken, read⟩ := exists_of_bind_ok read
    obtain ⟨inferredIs, rfl⟩ := (inferredRead _ _).mp inferredTaken
    obtain ⟨left, closed, result⟩ := exists_of_bind_ok read
    obtain ⟨noMore, rfl⟩ := (closeRead _).mp closed
    cases result
    refine ⟨⟨noMore, ⟨some name, line, column, some kind, isDefinition,
      inferred⟩, ?_, rfl⟩, rfl⟩
    intro field
    cases field with
    | name =>
        exact nameIs
    | line =>
        exact lineIs
    | column =>
        exact columnIs
    | kind =>
        exact kindIs
    | isDefinition =>
        exact definitionIs
    | inferred =>
        exact inferredIs
  · rintro ⟨⟨noMore, final, values, finished⟩, rfl⟩
    obtain ⟨name, kind, hasName, hasKind, rfl⟩ :=
      NameDraft.finish_eq_ok_iff.mp finished
    have nameIs := values .name
    have kindIs := values .kind
    rw [NameDraft.value?, hasName] at nameIs
    rw [NameDraft.value?, hasKind] at kindIs
    have nameTaken := (nameRead name afterName).mpr ⟨nameIs, rfl⟩
    have lineTaken :=
      (lineRead final.line afterLine).mpr ⟨values .line, rfl⟩
    have columnTaken :=
      (columnRead final.column afterColumn).mpr ⟨values .column, rfl⟩
    have kindTaken := (kindRead kind afterKind).mpr ⟨kindIs, rfl⟩
    have definitionTaken :=
      (definitionRead final.isDefinition afterDefinition).mpr
        ⟨values .isDefinition, rfl⟩
    have inferredTaken :=
      (inferredRead final.inferred afterInferred).mpr
        ⟨values .inferred, rfl⟩
    have closed := (closeRead after).mpr ⟨noMore, rfl⟩
    simp only [readElements, nameTaken, lineTaken, columnTaken, kindTaken,
      definitionTaken, inferredTaken, closed, bind, Except.bind, pure,
      Except.pure, NameDraft.record]

theorem tells_elements
    (elements : List Value) :
    reader.Tells (.list elements) fun record =>
      elements.length ≤ 6 ∧ Describes (keyed elements) record := by
  intro form rest isForm _ record after
  have bracket (text : List Char) :
      reader.read ('[' :: text) = readElements text :=
    rfl
  cases isForm with
  | list enclosed =>
      cases enclosed with
      | empty isBlank =>
          rw [List.cons_append, List.append_assoc, List.singleton_append,
            bracket]
          exact (ListTail.Holds.empty isBlank).readElements_iff record after
      | items separated =>
          rw [List.cons_append, List.append_assoc, List.singleton_append,
            bracket]
          exact
            (ListTail.Holds.items .first separated).readElements_iff record
              after

/-! ## Lists that may end early -/

theorem standsFor_singleton_iff
    {α : Type} {form : α → Value} {default content : α} {value : Value} :
    StandsFor form default content [value] ↔ value = form content := by
  simp [StandsFor]

theorem standsFor_nil_iff
    {α : Type} {form : α → Value} {default content : α} :
    StandsFor form default content [] ↔ content = default := by
  simp [StandsFor]

section InOrder

variable {elements : List Value} {record : NameRecord}

/-- What the elements of a list have to be, by their places. -/
theorem describes_keyed_iff_elements :
    Describes (keyed elements) record ↔
      elements[0]? = some (.string record.name) ∧
      StandsFor .ofWord none record.line elements[1]?.toList ∧
      StandsFor .ofWord none record.column elements[2]?.toList ∧
      elements[3]? = some (.string record.kind) ∧
      StandsFor .boolean false record.isDefinition elements[4]?.toList ∧
      StandsFor (fun texts => .list (texts.map .string)) [] record.inferred
        elements[5]?.toList := by
  have values := fun field => valuesOf_keyed field elements
  have single {option : Option Value} {value : Value} :
      option.toList = [value] ↔ option = some value := by
    rw [← Option.toList_some, NameDraft.toList_injective.eq_iff]
  constructor
  · intro describes
    exact
      ⟨single.mp ((values .name).symm.trans describes.name),
        values .line ▸ describes.line, values .column ▸ describes.column,
        single.mp ((values .kind).symm.trans describes.kind),
        values .isDefinition ▸ describes.isDefinition,
        values .inferred ▸ describes.inferred⟩
  · rintro ⟨name, line, column, kind, isDefinition, inferred⟩
    exact
      { name := (values .name).trans (single.mpr name)
        line := (values .line).symm ▸ line
        column := (values .column).symm ▸ column
        kind := (values .kind).trans (single.mpr kind)
        isDefinition := (values .isDefinition).symm ▸ isDefinition
        inferred := (values .inferred).symm ▸ inferred }

theorem describesInOrder_iff :
    DescribesInOrder elements record ↔
      elements.length ≤ 6 ∧ Describes (keyed elements) record := by
  rw [describes_keyed_iff_elements]
  constructor
  · intro describes
    refine ⟨describes.length_bounds.2, ?_⟩
    cases describes with
    | four noDefinition noInferred =>
        exact ⟨rfl, .inl rfl, .inl rfl, rfl, .inr ⟨rfl, noDefinition⟩,
          .inr ⟨rfl, noInferred⟩⟩
    | five noInferred =>
        exact ⟨rfl, .inl rfl, .inl rfl, rfl, .inl rfl,
          .inr ⟨rfl, noInferred⟩⟩
    | six =>
        exact ⟨rfl, .inl rfl, .inl rfl, rfl, .inl rfl, .inl rfl⟩
  · intro described
    obtain ⟨short, name, line, column, kind, isDefinition, inferred⟩ :=
      described
    rcases elements with
      _ | ⟨a, _ | ⟨b, _ | ⟨c, _ | ⟨d, trailing⟩⟩⟩⟩
    · cases kind
    · cases kind
    · cases kind
    · cases kind
    · obtain rfl := Option.some.inj name
      obtain rfl := standsFor_singleton_iff.mp line
      obtain rfl := standsFor_singleton_iff.mp column
      obtain rfl := Option.some.inj kind
      rcases trailing with _ | ⟨e, _ | ⟨f, _ | ⟨g, more⟩⟩⟩
      · exact .four (standsFor_nil_iff.mp isDefinition)
          (standsFor_nil_iff.mp inferred)
      · obtain rfl := standsFor_singleton_iff.mp isDefinition
        exact .five (standsFor_nil_iff.mp inferred)
      · obtain rfl := standsFor_singleton_iff.mp isDefinition
        obtain rfl := standsFor_singleton_iff.mp inferred
        exact .six
      · simp only [List.length_cons] at short
        omega

end InOrder

/-! ## Records in either form -/

/-- Whether a value stands for a record. -/
inductive Depicts : Value → NameRecord → Prop
  | object {members : List (String × Value)} {record : NameRecord} :
      Describes members record → Depicts (.object members) record
  | list {elements : List Value} {record : NameRecord} :
      DescribesInOrder elements record → Depicts (.list elements) record

theorem depicts_object_iff
    {members : List (String × Value)} {record : NameRecord} :
    Depicts (.object members) record ↔ Describes members record :=
  ⟨fun (.object describes) => describes, .object⟩

theorem depicts_list_iff
    {elements : List Value} {record : NameRecord} :
    Depicts (.list elements) record ↔ DescribesInOrder elements record :=
  ⟨fun (.list describes) => describes, .list⟩

theorem read_reader_ne_ok
    {first : Char} (noSpace : isSpace first = false)
    (noBracket : first ≠ '[') (noBrace : first ≠ '\x7b')
    (others : List Char) (result : NameRecord × List Char) :
    reader.read (first :: others) ≠ .ok result := by
  change readRecord (first :: others) ≠ _
  rw [readRecord, skipSpaces_cons_of_not_space noSpace]
  split
  · rename_i begins
    exact (noBracket (List.cons.inj begins).1).elim
  · rename_i begins
    exact (noBrace (List.cons.inj begins).1).elim
  · intro read
    cases read

theorem tells_reader
    (value : Value) :
    reader.Tells value (Depicts value) := by
  cases value with
  | object members =>
      apply (tells_object members).congr
      intro record
      rw [depicts_object_iff, describes_iff]
  | list elements =>
      apply (tells_elements elements).congr
      intro record
      rw [depicts_list_iff, describesInOrder_iff]
  | null | boolean _ | number _ | string _ =>
      apply Reader.Tells.of_refused
      · nofun
      · intro first opens
        apply read_reader_ne_ok opens.ne.1
        · rintro rfl
          obtain ⟨elements, isList⟩ := opens.exists_list
          cases isList
        · rintro rfl
          obtain ⟨members, isObject⟩ := opens.exists_object
          cases isObject

/-- A text of a list of values is accepted just if each of them stands for a
record. -/
theorem readAll_values_iff
    {values : List Value} {before text after : List Char}
    (form : ValueForm (.list values) text)
    (isBefore : Blank before) (isAfter : Blank after)
    (records : List NameRecord) :
    readAll (before ++ (text ++ after)) = .ok records ↔
      List.Forall₂ Depicts values records := by
  have tells : ∀ value ∈ values, reader.Tells value (Depicts value) :=
    fun value _ => tells_reader value
  exact
    readAll_form_iff (Reader.tells_list tells) form isBefore isAfter records

section Elements

variable {first second : List Value} {value other : Value}
variable {records : List NameRecord}

theorem exists_depicts_of_forall₂
    (related : List.Forall₂ Depicts (first ++ value :: second) records) :
    ∃ record, Depicts value record := by
  have later := List.forall₂_drop first.length related
  rw [List.drop_left] at later
  obtain ⟨record, _, depicts, -, -⟩ := List.forall₂_cons_left_iff.mp later
  exact ⟨record, depicts⟩

theorem forall₂_depicts_congr
    (same : ∀ record, Depicts other record ↔ Depicts value record) :
    List.Forall₂ Depicts (first ++ other :: second) records ↔
      List.Forall₂ Depicts (first ++ value :: second) records := by
  induction first generalizing records with
  | nil =>
      simp only [List.nil_append, List.forall₂_cons_left_iff, same]
  | cons head first inductionHypothesis =>
      simp only [List.cons_append, List.forall₂_cons_left_iff,
        inductionHypothesis]

end Elements

/-- A list is accepted as a record just if it has from four to six elements and
the object of its values is accepted, and it is read as the same record. -/
theorem readAll_list_iff_object
    {first second elements : List Value} {before text after : List Char}
    (form : ValueForm (.list (first ++ .list elements :: second)) text)
    (isBefore : Blank before) (isAfter : Blank after) :
    (∀ records, readAll (before ++ (text ++ after)) = .ok records ↔
      List.Forall₂ Depicts (first ++ .list elements :: second) records) ∧
    (elements.length < 4 ∨ 6 < elements.length →
      ∃ fault, readAll (before ++ (text ++ after)) = .error fault) ∧
    (elements.length ≤ 6 →
      ∀ {members : List (String × Value)} {otherText : List Char},
        ValueForm (.list (first ++ .object members :: second)) otherText →
        (∀ field : NameField,
          valuesOf field.key members =
            valuesOf field.key (keyed elements)) →
        ∀ records, readAll (before ++ (text ++ after)) = .ok records ↔
          readAll (before ++ (otherText ++ after)) = .ok records) := by
  have accepted := readAll_values_iff form isBefore isAfter
  refine ⟨accepted, ?_, ?_⟩
  · intro wrongLength
    cases read : readAll (before ++ (text ++ after)) with
    | error fault =>
        exact ⟨fault, rfl⟩
    | ok records =>
        obtain ⟨record, depicts⟩ :=
          exists_depicts_of_forall₂ ((accepted records).mp read)
        have bounds := (depicts_list_iff.mp depicts).length_bounds
        omega
  · intro short members otherText otherForm same records
    have alike (record : NameRecord) :
        Depicts (.list elements) record ↔
          Depicts (.object members) record := by
      rw [depicts_list_iff, depicts_object_iff, describesInOrder_iff,
        and_iff_right short, describes_congr same]
    rw [accepted, readAll_values_iff otherForm isBefore isAfter,
      forall₂_depicts_congr alike]

/-- The list and the object of a record without its last field, and a list that
is too short. -/
theorem readAll_list_of_five_elements :
    readAll " [[\"f\",null,3,\"T\",true]]\n".toList =
        .ok [{ name := "f", column := some 3, kind := "T",
               isDefinition := true }] ∧
      readAll " [\x7b\"name\":\"f\",\"line\":null,\"column\":3,\"type\":\"T\",\"is_definition\":true\x7d]\n".toList =
        .ok [{ name := "f", column := some 3, kind := "T",
               isDefinition := true }] ∧
      ∃ fault,
        readAll " [[\"f\",null,\"T\"]]\n".toList = .error fault := by
  have nothing : Blank [] := nofun
  have space : Blank [' '] := by
    decide
  have newline : Blank ['\n'] := by
    decide
  have plain {text : String}
      (arePlain : text.toList.all isPlain = true) :
      StringForm text ('"' :: (text.toList ++ ['"'])) :=
    .quoted (.of_plain arePlain)
  have member {key : String} {value : Value} {form : List Char}
      (isPlainKey : key.toList.all isPlain = true)
      (isForm : ValueForm value form) :
      MemberForm ValueForm (key, value) _ :=
    .member (plain isPlainKey) nothing nothing isForm
  have name : ValueForm (.string "f") _ := .string (plain (by decide))
  have kind : ValueForm (.string "T") _ := .string (plain (by decide))
  have three : NumeralForm ['3'] :=
    @NumeralForm.parts [] ['3'] [] [] (by decide)
      (.digits (by decide) (by decide) nofun) .none .none
  have column : ValueForm (.ofWord (some 3)) _ := .number three
  have elements :
      ValueForm (.list ([] ++ .list [.string "f", .null, .ofWord (some 3),
        .string "T", .boolean true] :: [])) _ :=
    .list (.items (.one nothing
      (.list (.items (.more nothing name nothing (.more nothing .null nothing
        (.more nothing column nothing (.more nothing kind nothing
          (.one nothing .true nothing))))))) nothing))
  have members :
      ValueForm (.list ([] ++ .object [("name", .string "f"), ("line", .null),
        ("column", .ofWord (some 3)), ("type", .string "T"),
        ("is_definition", .boolean true)] :: [])) _ :=
    .list (.items (.one nothing
      (.object (.items (.more nothing (member (by decide) name) nothing
        (.more nothing (member (by decide) .null) nothing
          (.more nothing (member (by decide) column) nothing
            (.more nothing (member (by decide) kind) nothing
              (.one nothing (member (by decide) .true) nothing)))))))
      nothing))
  have tooFew :
      ValueForm (.list ([] ++ .list [.string "f", .null, .string "T"] :: []))
        _ :=
    .list (.items (.one nothing
      (.list (.items (.more nothing name nothing (.more nothing .null nothing
        (.one nothing kind nothing))))) nothing))
  have depicted :
      List.Forall₂ Depicts
        ([] ++ .list [.string "f", .null, .ofWord (some 3), .string "T",
          .boolean true] :: [])
        [{ name := "f", column := some 3, kind := "T",
           isDefinition := true }] :=
    .cons (.list (@DescribesInOrder.five
      { name := "f", column := some 3, kind := "T", isDefinition := true }
      rfl)) .nil
  obtain ⟨acceptance, -, equivalence⟩ :=
    readAll_list_iff_object elements space newline
  obtain ⟨-, rejection, -⟩ := readAll_list_iff_object tooFew space newline
  have accepted := (acceptance _).mpr depicted
  have sameAccepted :=
    (equivalence (by decide) members (fun _ => rfl) _).mp accepted
  obtain ⟨fault, rejected⟩ := rejection (by decide)
  refine ⟨?_, ?_, fault, ?_⟩
  · refine Eq.trans (congrArg readAll ?_) accepted
    decide
  · refine Eq.trans (congrArg readAll ?_) sameAccepted
    decide
  · refine Eq.trans (congrArg readAll ?_) rejected
    decide

end NameRecord

end SemanticTokens
