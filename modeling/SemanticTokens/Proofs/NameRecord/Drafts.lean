import SemanticTokens.Proofs.Json.Grammar.Reading
import SemanticTokens.Proofs.NameRecord.RoundTrip

/-!
# Members taken into a draft

A draft is described by the values that stand for its fields.  Reading the
value of a field takes it into the draft and leaves the other fields alone, and
a member with another key leaves the whole draft alone.  Over all members of an
object, each field ends up with the values that stand behind its key, of which
there is at most one.
-/

namespace SemanticTokens

open Json Text

/-! ## Values of a draft -/

def valuesOf (key : String) (members : List (String × Value)) : List Value :=
  (members.filter fun member => member.1 == key).map Prod.snd

theorem valuesOf_cons_self
    (key : String) (value : Value) (members : List (String × Value)) :
    valuesOf key ((key, value) :: members) = value :: valuesOf key members := by
  rw [valuesOf, List.filter_cons_of_pos (by simp), List.map_cons, valuesOf]

theorem valuesOf_cons_of_ne
    {key other : String} (different : other ≠ key) (value : Value)
    (members : List (String × Value)) :
    valuesOf key ((other, value) :: members) = valuesOf key members := by
  rw [valuesOf, List.filter_cons_of_neg (by simpa using different), valuesOf]

theorem valuesOf_cons
    (key : String) (member : String × Value)
    (members : List (String × Value)) :
    valuesOf key (member :: members) =
      valuesOf key [member] ++ valuesOf key members := by
  rw [valuesOf, valuesOf, valuesOf, ← List.map_append, ← List.filter_append,
    List.singleton_append]

namespace NameField

theorem key_injective : Function.Injective key := by
  intro left right same
  cases left <;> cases right <;> first | rfl | exact absurd same (by decide)

theorem eq_key_of_ofKey?
    {key : String} {field : NameField} (found : ofKey? key = some field) :
    field.key = key := by
  have same := List.find?_some found
  exact beq_iff_eq.mp same

theorem ne_of_ofKey?_eq_none
    {key : String} (unknown : ofKey? key = none) (field : NameField) :
    key ≠ field.key := by
  rintro rfl
  rw [NameRecord.ofKey?_key] at unknown
  cases unknown

end NameField

theorem Json.Value.ofWord_injective :
    Function.Injective Value.ofWord := by
  intro left right same
  cases left with
  | none =>
      cases right with
      | none =>
          rfl
      | some right =>
          cases same
  | some left =>
      cases right with
      | none =>
          cases same
      | some right =>
          have sameNumber :=
            toDigits_ten_injective (Value.number.inj same)
          rw [UInt32.toNat_inj.mp sameNumber]

namespace NameDraft

/-- The value that stands for a field, if it has been read. -/
def value? (draft : NameDraft) : NameField → Option Value
  | .name => draft.name.map .string
  | .line => draft.line.map .ofWord
  | .column => draft.column.map .ofWord
  | .kind => draft.kind.map .string
  | .isDefinition => draft.isDefinition.map .boolean
  | .inferred => draft.inferred.map fun texts => .list (texts.map .string)

/-- Before anything is read, no field has a value. -/
theorem value?_empty
    (field : NameField) : value? {} field = none := by
  cases field <;> rfl

theorem finish_eq_ok_iff
    {draft : NameDraft} {record : NameRecord} :
    draft.finish = .ok record ↔
      ∃ name kind, draft.name = some name ∧ draft.kind = some kind ∧
        draft.record name kind = record := by
  unfold finish
  split
  · rename_i noName
    simp [noName]
  · rename_i noKind
    simp [noKind]
  · rename_i hasName hasKind
    simp [hasName, hasKind]

theorem has_eq_isSome
    (draft : NameDraft) (field : NameField) :
    draft.has field = (draft.value? field).isSome := by
  cases field <;> exact Option.isSome_map.symm

/-- The values of its fields determine a draft. -/
theorem eq_of_value?_eq
    {left right : NameDraft}
    (same : ∀ field, left.value? field = right.value? field) :
    left = right := by
  have string : Function.Injective Value.string := fun _ _ =>
    Value.string.inj
  have boolean : Function.Injective Value.boolean := fun _ _ =>
    Value.boolean.inj
  have texts :
      Function.Injective fun texts : List String =>
        Value.list (texts.map .string) := by
    intro leftTexts rightTexts sameList
    exact List.map_injective_iff.mpr string (Value.list.inj sameList)
  have name := Option.map_injective string (same .name)
  have line := Option.map_injective Value.ofWord_injective (same .line)
  have column := Option.map_injective Value.ofWord_injective (same .column)
  have kind := Option.map_injective string (same .kind)
  have isDefinition := Option.map_injective boolean (same .isDefinition)
  have inferred := Option.map_injective texts (same .inferred)
  cases left
  cases right
  simp only [mk.injEq]
  exact ⟨name, line, column, kind, isDefinition, inferred⟩

def copy (draft source : NameDraft) : NameField → NameDraft
  | .name => { draft with name := source.name }
  | .line => { draft with line := source.line }
  | .column => { draft with column := source.column }
  | .kind => { draft with kind := source.kind }
  | .isDefinition => { draft with isDefinition := source.isDefinition }
  | .inferred => { draft with inferred := source.inferred }

theorem value?_copy
    (draft source : NameDraft) (field other : NameField) :
    (draft.copy source field).value? other =
      if other = field then source.value? field else draft.value? other := by
  cases field <;> cases other <;> rfl

/-! ## Reading the value of a field -/

/-- Whether a draft differs from another one by the value of a field. -/
structure Takes
    (draft : NameDraft) (field : NameField) (value : Value)
    (updated : NameDraft) : Prop where
  taken : updated.value? field = some value
  kept : ∀ other, other ≠ field → updated.value? other = draft.value? other

theorem takes_copy
    (draft : NameDraft) {source : NameDraft} {field : NameField}
    {value : Value} (taken : source.value? field = some value) :
    draft.Takes field value (draft.copy source field) where
  taken := by
    rw [value?_copy, if_pos rfl, taken]
  kept other different := by
    rw [value?_copy, if_neg different]

theorem Takes.eq_copy
    {draft updated : NameDraft} {field : NameField} {value : Value}
    (takes : draft.Takes field value updated) :
    draft.copy updated field = updated := by
  apply eq_of_value?_eq
  intro other
  rw [value?_copy]
  split
  · rename_i same
    rw [same]
  · rename_i different
    exact (takes.kept other different).symm

/-- A field is looked up and put into a draft, and the two agree on what the
field stands for. -/
theorem tells_map
    {α : Type} {draft : NameDraft} {field : NameField} {item : Reader α}
    {value : Value} {form : α → Value}
    (tells : item.Tells value fun content => value = form content)
    (look : NameDraft → Option α) (put : Option α → NameDraft)
    (standsFor : ∀ source : NameDraft,
      source.value? field = (look source).map form)
    (look_put : ∀ content, look (put content) = content)
    (copied : ∀ source, draft.copy source field = put (look source)) :
    (item.map fun content => put (some content)).Tells value
      (draft.Takes field value) := by
  apply (tells.map _).congr
  intro updated
  constructor
  · rintro ⟨content, rfl, rfl⟩
    have taken :
        (put (some content)).value? field = some (form content) := by
      rw [standsFor, look_put, Option.map_some]
    have sameDraft := copied (put (some content))
    rw [look_put] at sameDraft
    rw [← sameDraft]
    exact takes_copy draft taken
  · intro takes
    have taken := takes.taken
    rw [standsFor, Option.map_eq_some_iff] at taken
    obtain ⟨content, found, same⟩ := taken
    refine ⟨content, same.symm, ?_⟩
    rw [← found, ← copied, takes.eq_copy]

/-- The value of a field is read into the draft, if it is one of its kind. -/
theorem tells_reader
    (draft : NameDraft) (field : NameField) (value : Value) :
    (draft.reader field).Tells value (draft.Takes field value) := by
  cases field with
  | name =>
      rw [reader]
      exact
        tells_map (Reader.tells_text value) name
          (fun content => { draft with name := content })
          (fun _ => rfl) (fun _ => rfl) fun _ => rfl
  | line =>
      rw [reader]
      exact
        tells_map (Reader.tells_optionalWord value) line
          (fun content => { draft with line := content })
          (fun _ => rfl) (fun _ => rfl) fun _ => rfl
  | column =>
      rw [reader]
      exact
        tells_map (Reader.tells_optionalWord value) column
          (fun content => { draft with column := content })
          (fun _ => rfl) (fun _ => rfl) fun _ => rfl
  | kind =>
      rw [reader]
      exact
        tells_map (Reader.tells_text value) kind
          (fun content => { draft with kind := content })
          (fun _ => rfl) (fun _ => rfl) fun _ => rfl
  | isDefinition =>
      rw [reader]
      exact
        tells_map (Reader.tells_boolean value) isDefinition
          (fun content => { draft with isDefinition := content })
          (fun _ => rfl) (fun _ => rfl) fun _ => rfl
  | inferred =>
      rw [reader]
      exact
        tells_map (Reader.tells_list_text value) inferred
          (fun content => { draft with inferred := content })
          (fun _ => rfl) (fun _ => rfl) fun _ => rfl

theorem skipsBlank_reader
    (draft : NameDraft) (field : NameField) :
    (draft.reader field).SkipsBlank := by
  cases field with
  | name | kind =>
      rw [reader]
      exact Reader.SkipsBlank.map Reader.skipsBlank_text _
  | line | column =>
      rw [reader]
      exact Reader.SkipsBlank.map Reader.skipsBlank_optionalWord _
  | isDefinition =>
      rw [reader]
      exact Reader.SkipsBlank.map Reader.skipsBlank_boolean _
  | inferred =>
      rw [reader]
      exact Reader.SkipsBlank.map Reader.skipsBlank_list _

/-! ## Members taken one after the other -/

/-- Whether a member makes one draft into another one. -/
def TakesMember
    (draft : NameDraft) (member : String × Value)
    (updated : NameDraft) : Prop :=
  match NameField.ofKey? member.1 with
  | none => updated = draft
  | some field =>
      draft.has field = false ∧ draft.Takes field member.2 updated

inductive TakesMembers :
    NameDraft → List (String × Value) → NameDraft → Prop
  | nil {draft : NameDraft} :
      TakesMembers draft [] draft
  | cons {draft updated final : NameDraft} {member : String × Value}
      {members : List (String × Value)} :
      draft.TakesMember member updated →
      TakesMembers updated members final →
      TakesMembers draft (member :: members) final

theorem takesMembers_cons_iff
    {draft final : NameDraft} {member : String × Value}
    {members : List (String × Value)} :
    TakesMembers draft (member :: members) final ↔
      ∃ updated, draft.TakesMember member updated ∧
        TakesMembers updated members final := by
  constructor
  · rintro (_ | ⟨takesMember, takesMembers⟩)
    exact ⟨_, takesMember, takesMembers⟩
  · rintro ⟨updated, takesMember, takesMembers⟩
    exact .cons takesMember takesMembers

theorem TakesMember.toList_value?
    {draft updated : NameDraft} {member : String × Value}
    (takes : draft.TakesMember member updated) (field : NameField) :
    (updated.value? field).toList =
      (draft.value? field).toList ++ valuesOf field.key [member] := by
  obtain ⟨key, value⟩ := member
  unfold TakesMember at takes
  dsimp only at takes
  split at takes
  · rename_i unknown
    subst takes
    have different := NameField.ne_of_ofKey?_eq_none unknown field
    rw [valuesOf_cons_of_ne different]
    exact (List.append_nil _).symm
  · rename_i taken known
    obtain rfl := NameField.eq_key_of_ofKey? known
    obtain ⟨isFree, takes⟩ := takes
    by_cases same : field = taken
    · subst same
      rw [has_eq_isSome, Option.isSome_eq_false_iff, Option.isNone_iff_eq_none]
        at isFree
      rw [takes.taken, isFree, valuesOf_cons_self]
      rfl
    · have different : taken.key ≠ field.key := fun sameKey =>
        same (NameField.key_injective sameKey).symm
      rw [takes.kept field same, valuesOf_cons_of_ne different]
      exact (List.append_nil _).symm

theorem toList_injective
    {α : Type} : Function.Injective (@Option.toList α) := by
  intro left right same
  cases left <;> cases right <;> simp_all

/-- An option with the values of another one and one more is just that one. -/
theorem of_toList_eq_append_cons
    {α : Type} {option before : Option α} {value : α} {others : List α}
    (same : option.toList = before.toList ++ value :: others) :
    before = none ∧ option = some value ∧ others = [] := by
  cases option <;> cases before <;> simp_all

/-- The members of an object can be taken if no field gets a second value. -/
theorem takesMembers_iff
    {members : List (String × Value)} {draft final : NameDraft} :
    TakesMembers draft members final ↔
      ∀ field, (final.value? field).toList =
        (draft.value? field).toList ++ valuesOf field.key members := by
  constructor
  · intro takes field
    induction takes with
    | nil =>
        exact (List.append_nil _).symm
    | @cons draft updated final member members takesMember _
        inductionHypothesis =>
        rw [inductionHypothesis, takesMember.toList_value?,
          valuesOf_cons field.key member members, List.append_assoc]
  · intro same
    induction members generalizing draft with
    | nil =>
        obtain rfl : draft = final := by
          apply eq_of_value?_eq
          intro field
          have sameList := same field
          rw [valuesOf, List.filter_nil, List.map_nil, List.append_nil]
            at sameList
          exact toList_injective sameList.symm
        exact .nil
    | cons member members inductionHypothesis =>
        obtain ⟨key, value⟩ := member
        cases known : NameField.ofKey? key with
        | none =>
            have unchanged : draft.TakesMember (key, value) draft := by
              rw [TakesMember, known]
            apply TakesMembers.cons unchanged
            apply inductionHypothesis
            intro field
            have different := NameField.ne_of_ofKey?_eq_none known field
            rw [same field, valuesOf_cons_of_ne different]
        | some field =>
            obtain rfl := NameField.eq_key_of_ofKey? known
            have atField := same field
            rw [valuesOf_cons_self] at atField
            obtain ⟨isFree, taken, noOther⟩ := of_toList_eq_append_cons atField
            -- The field is taken over from the draft that all members lead to.
            have takes := takes_copy draft taken
            have free : draft.has field = false := by
              rw [has_eq_isSome, isFree, Option.isSome_none]
            have takesMember :
                draft.TakesMember (field.key, value) (draft.copy final field) := by
              rw [TakesMember, known]
              exact ⟨free, takes⟩
            apply TakesMembers.cons takesMember
            apply inductionHypothesis
            intro other
            by_cases sameField : other = field
            · rw [sameField, noOther, takes.taken, taken, List.append_nil]
            · have different : field.key ≠ other.key := fun sameKey =>
                sameField (NameField.key_injective sameKey).symm
              rw [same other, takes.kept other sameField,
                valuesOf_cons_of_ne different]

end NameDraft

end SemanticTokens
