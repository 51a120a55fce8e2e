import SemanticTokens.Proofs.Collection.Examination
import SemanticTokens.Proofs.Collection.Log

/-!
# The checks that a name has to pass

A name is highlighted if it is reported with a line and a column, its kind
leads to a category, and its text has some length.  The checks come in this
order, and only the second one infers anything.  The first check that fails
leaves one more record behind those of the inference, so that the order shows in
the log and in the number of inferences.

The reported kind decides whether a definition declares, and the kind that was
inferred decides the category.
-/

namespace SemanticTokens

/-- Whether a record tells a text at the level of traces, however long a run
takes. -/
def LogRecord.Traces (record : LogRecord) (text : String) : Prop :=
  record.level = .trace ∧ ∀ elapsed : String, record.text elapsed = text

namespace Occurrence

/-! ## Where a name is reported -/

/-- Whether a name is reported at a line, counted from one, and a column. -/
def ReportedAt (occurrence : Occurrence) (line column : UInt32) : Prop :=
  occurrence.line = some line ∧ 1 ≤ line ∧ occurrence.column = some column

theorem ReportedAt.position?_eq
    {occurrence : Occurrence} {line column : UInt32}
    (reported : occurrence.ReportedAt line column) :
    occurrence.position? = some (line - 1, column) := by
  obtain ⟨lineKnown, counted, columnKnown⟩ := reported
  have positive : 0 < line := UInt32.lt_of_lt_of_le (by decide) counted
  rw [position?, lineKnown, columnKnown]
  exact if_pos positive

theorem exists_reportedAt_of_position?_eq_some
    {occurrence : Occurrence} {line column : UInt32}
    (positioned : occurrence.position? = some (line, column)) :
    ∃ reportedLine,
      occurrence.ReportedAt reportedLine column ∧
        line.toNat + 1 = reportedLine.toNat := by
  rw [position?] at positioned
  cases lineKnown : occurrence.line with
  | none =>
      rw [lineKnown] at positioned
      cases positioned
  | some reportedLine =>
      cases columnKnown : occurrence.column with
      | none =>
          rw [lineKnown, columnKnown] at positioned
          cases positioned
      | some reportedColumn =>
          rw [lineKnown, columnKnown] at positioned
          by_cases positive : 0 < reportedLine
          · have counted : 1 ≤ reportedLine :=
              UInt32.le_iff_toNat_le.mpr (UInt32.lt_iff_toNat_lt.mp positive)
            cases (if_pos positive).symm.trans positioned
            refine ⟨reportedLine, ⟨lineKnown, counted, columnKnown⟩, ?_⟩
            rw [UInt32.toNat_sub_of_le _ _ counted]
            exact Nat.sub_add_cancel (UInt32.le_iff_toNat_le.mp counted)
          · cases (if_neg positive).symm.trans positioned

theorem position?_eq_none_iff
    (occurrence : Occurrence) :
    occurrence.position? = none ↔
      ∀ line column, ¬ occurrence.ReportedAt line column := by
  constructor
  · intro unknown line column reported
    rw [reported.position?_eq] at unknown
    cases unknown
  · intro nowhere
    cases positioned : occurrence.position? with
    | none =>
        rfl
    | some position =>
        obtain ⟨line, reported, _⟩ :=
          exists_reportedAt_of_position?_eq_some positioned
        exact (nowhere line position.2 reported).elim

/-! ## What a highlighted name shows -/

theorem isSome_highlight_examine_iff
    (occurrence : Occurrence) (policy : CollectionPolicy) :
    (occurrence.examine policy).highlight.isSome = true ↔
      (∃ line column, occurrence.ReportedAt line column) ∧
        (occurrence.categorize policy.inferenceLimit).category.isSome = true ∧
          policy.unit.measure occurrence.text.toList ≠ 0 := by
  rw [Option.isSome_iff_exists, Option.isSome_iff_exists]
  constructor
  · rintro ⟨highlight, highlighted⟩
    obtain ⟨line, column, category, positioned, categorized, nonempty, _⟩ :=
      (highlight_examine_eq_some_iff _ _ _).mp highlighted
    obtain ⟨reportedLine, reported, _⟩ :=
      exists_reportedAt_of_position?_eq_some positioned
    exact
      ⟨⟨reportedLine, column, reported⟩, ⟨category, categorized⟩, nonempty⟩
  · rintro ⟨⟨line, column, reported⟩, ⟨category, categorized⟩, nonempty⟩
    exact
      ⟨_, (highlight_examine_eq_some_iff _ _ _).mpr
        ⟨_, _, category, reported.position?_eq, categorized, nonempty, rfl⟩⟩

theorem contains_declaration_modifiers_iff
    (occurrence : Occurrence) :
    occurrence.modifiers.contains .declaration = true ↔
      occurrence.isDefinition = true ∧ occurrence.kind ≠ moduleKind := by
  have inserted :
      (ModifierSet.empty.insert .declaration).contains .declaration = true := by
    decide
  have notInEmpty : ModifierSet.empty.contains .declaration = false := by
    decide
  rw [← bne_iff_ne, ← Bool.and_eq_true, modifiers]
  by_cases declares :
      (occurrence.isDefinition && occurrence.kind != moduleKind) = true
  · rw [if_pos declares]
    exact iff_of_true inserted declares
  · rw [if_neg declares, notInEmpty]
    exact iff_of_false Bool.false_ne_true declares

/-! ## What the examination of a name leaves behind -/

theorem examine_of_forall_not_reportedAt
    {occurrence : Occurrence}
    (nowhere : ∀ line column, ¬ occurrence.ReportedAt line column)
    (policy : CollectionPolicy) :
    occurrence.examine policy =
      ⟨none, 0, [.noPosition occurrence.text]⟩ := by
  rw [examine, occurrence.position?_eq_none_iff.mpr nowhere]

section Reported

variable {occurrence : Occurrence} {line column : UInt32}
  (policy : CollectionPolicy)

/-- A name with a position is followed to its category, whatever comes of it. -/
theorem calls_examine_of_reportedAt
    (reported : occurrence.ReportedAt line column) :
    (occurrence.examine policy).calls =
      (occurrence.categorize policy.inferenceLimit).calls := by
  have ends := occurrence.examine_ends policy
  generalize occurrence.examine policy = examination at ends ⊢
  cases ends with
  | noPosition unknown =>
      rw [reported.position?_eq] at unknown
      cases unknown
  | noCategory _ categorized | emptyName _ categorized
  | highlighted _ categorized =>
      rw [categorized]

theorem log_examine_of_category_eq_none
    (reported : occurrence.ReportedAt line column)
    (uncategorized :
      (occurrence.categorize policy.inferenceLimit).category = none) :
    (occurrence.examine policy).log =
      (occurrence.categorize policy.inferenceLimit).log ++
        [.unmappedKind occurrence.text occurrence.kind] := by
  rw [examine, reported.position?_eq]
  simp only [uncategorized]

theorem log_examine_of_measure_eq_zero
    (reported : occurrence.ReportedAt line column)
    (categorized :
      (occurrence.categorize policy.inferenceLimit).category ≠ none)
    (empty : policy.unit.measure occurrence.text.toList = 0) :
    (occurrence.examine policy).log =
      (occurrence.categorize policy.inferenceLimit).log ++
        [.emptyName (line - 1) column] := by
  obtain ⟨category, found⟩ := Option.ne_none_iff_exists'.mp categorized
  rw [examine, reported.position?_eq]
  simp only [found, empty, if_true]

end Reported

theorem log_examine_of_highlight_ne_none
    {occurrence : Occurrence} {policy : CollectionPolicy}
    (highlighted : (occurrence.examine policy).highlight ≠ none) :
    (occurrence.examine policy).log =
      (occurrence.categorize policy.inferenceLimit).log := by
  have ends := occurrence.examine_ends policy
  generalize occurrence.examine policy = examination at ends highlighted ⊢
  cases ends with
  | noPosition | noCategory | emptyName =>
      exact (highlighted rfl).elim
  | highlighted _ categorized _ =>
      rw [categorized]

/-! ## All checks -/

/-- A name is highlighted exactly if it is reported at some line and column, its
kind leads to a category within the limit, and its text has a length.  The
highlight has these, with the line counted from zero, and declares exactly if
the name is a definition that is not reported as a module.

Without a line or column nothing is inferred, and the log tells just that.  With
both, the inferences and their records are those of finding the category, and
behind them the log tells the first check that fails, or nothing more if none
does. -/
theorem examine_makes_checks_in_order
    (occurrence : Occurrence) (policy : CollectionPolicy) :
    let found := occurrence.categorize policy.inferenceLimit
    let length := policy.unit.measure occurrence.text.toList
    let examination := occurrence.examine policy
    (examination.highlight.isSome = true ↔
        (∃ line column, occurrence.ReportedAt line column) ∧
          found.category.isSome = true ∧ length ≠ 0) ∧
      (∀ highlight, examination.highlight = some highlight →
        (∃ line,
          occurrence.ReportedAt line highlight.start ∧
            highlight.line.toNat + 1 = line.toNat) ∧
          highlight.length = length ∧
          found.category = some highlight.category ∧
          (highlight.modifiers.contains .declaration = true ↔
            occurrence.isDefinition = true ∧ occurrence.kind ≠ "module")) ∧
      ((∀ line column, ¬ occurrence.ReportedAt line column) →
        examination.calls = 0 ∧
          ∃ record,
            examination.log = [record] ∧
              record.Traces
                ("skipping `" ++ occurrence.text ++ "`: no position")) ∧
      ∀ line column, occurrence.ReportedAt line column →
        examination.calls = found.calls ∧
          (found.category = none →
            ∃ record,
              examination.log = found.log ++ [record] ∧
                record.Traces
                  ("skipping `" ++ occurrence.text ++ "`: unmapped kind `" ++
                    occurrence.kind ++ "`")) ∧
          (found.category ≠ none → length = 0 →
            ∃ record,
              examination.log = found.log ++ [record] ∧
                record.Traces
                  ("skipping empty name at L" ++ toString (line.toNat - 1) ++
                    ":" ++ toString column.toNat)) ∧
          (examination.highlight ≠ none → examination.log = found.log) := by
  intro found length examination
  refine ⟨occurrence.isSome_highlight_examine_iff policy, ?_, ?_, ?_⟩
  · intro highlight highlighted
    obtain ⟨line, column, category, positioned, categorized, _, rfl⟩ :=
      (highlight_examine_eq_some_iff _ _ _).mp highlighted
    exact
      ⟨exists_reportedAt_of_position?_eq_some positioned, rfl, categorized,
        occurrence.contains_declaration_modifiers_iff⟩
  · intro nowhere
    have examined := examine_of_forall_not_reportedAt nowhere policy
    exact
      ⟨congrArg Examination.calls examined, _,
        congrArg Examination.log examined, rfl, fun _ => rfl⟩
  · intro line column reported
    refine
      ⟨calls_examine_of_reportedAt policy reported, ?_, ?_,
        log_examine_of_highlight_ne_none⟩
    · intro uncategorized
      exact
        ⟨_, log_examine_of_category_eq_none policy reported uncategorized, rfl,
          fun _ => rfl⟩
    · intro categorized empty
      refine
        ⟨_, log_examine_of_measure_eq_zero policy reported categorized empty,
          rfl, ?_⟩
      intro elapsed
      -- The record keeps the line counted from zero, as the highlight would.
      rw [← UInt32.toNat_one, ← UInt32.toNat_sub_of_le _ _ reported.2.1]
      rfl

/-- The category comes from the inferred kind, a module, and the declaration
from the reported one.  A name without text that never stops being a statement
is skipped for its kind, a class without text for its text, and at line zero
both are skipped before anything is inferred. -/
theorem examine_makes_checks_in_order_of_statements :
    let declared : Occurrence :=
      ⟨"statement", "m", some 1, some 0, true, fun _ => ["module"]⟩
    let endless : Occurrence :=
      ⟨"statement", "", some 3, some 5, false, fun _ => ["statement"]⟩
    let ofClass : Occurrence :=
      ⟨"class", "", some 3, some 5, false, fun _ => []⟩
    let policy : CollectionPolicy := { inferenceLimit := 2 }
    (∃ highlight,
        (declared.examine policy).highlight = some highlight ∧
          highlight.category = .moduleName ∧
          highlight.modifiers.contains .declaration = true) ∧
      (∃ record,
        (endless.examine policy).log =
            [.inferenceLimitReached "" 2, record] ∧
          record.Traces "skipping ``: unmapped kind `statement`") ∧
      (∃ record,
        (ofClass.examine policy).log = [record] ∧
          record.Traces "skipping empty name at L2:5") ∧
      ({ endless with line := some 0 }.examine policy).calls = 0 := by
  intro declared endless ofClass policy
  have declaredFound :
      declared.categorize 2 = ⟨some .moduleName, 1, []⟩ := by
    decide
  have endlessFound :
      endless.categorize 2 =
        ⟨none, 2, [.inferenceLimitReached "" 2]⟩ := by
    decide
  have ofClassFound :
      ofClass.categorize 2 = ⟨some .className, 0, []⟩ := by
    decide
  have reported : endless.ReportedAt 3 5 := ⟨rfl, by decide, rfl⟩
  refine ⟨?_, ?_, ?_, ?_⟩
  · obtain ⟨isSome_iff, fields, _⟩ :=
      examine_makes_checks_in_order declared policy
    have isSome : (declared.examine policy).highlight.isSome = true := by
      refine isSome_iff.mpr ⟨⟨1, 0, rfl, by decide, rfl⟩, ?_, by decide⟩
      rw [declaredFound]
      rfl
    obtain ⟨highlight, highlighted⟩ := Option.isSome_iff_exists.mp isSome
    obtain ⟨_, _, category, declares⟩ := fields highlight highlighted
    rw [declaredFound] at category
    exact
      ⟨highlight, highlighted, (Option.some.inj category).symm,
        declares.mpr ⟨rfl, by decide⟩⟩
  · obtain ⟨_, _, _, placed⟩ := examine_makes_checks_in_order endless policy
    obtain ⟨_, ofCategory, _⟩ := placed 3 5 reported
    rw [endlessFound] at ofCategory
    exact ofCategory rfl
  · obtain ⟨_, _, _, placed⟩ := examine_makes_checks_in_order ofClass policy
    obtain ⟨_, _, ofText, _⟩ := placed 3 5 reported
    rw [ofClassFound] at ofText
    exact ofText nofun (by decide)
  · have noLine :
        ∀ line column,
          ¬ { endless with line := some 0 }.ReportedAt line column := by
      rintro line column ⟨lineZero, counted, _⟩
      cases lineZero
      revert counted
      decide
    obtain ⟨_, _, unplaced, _⟩ :=
      examine_makes_checks_in_order { endless with line := some 0 } policy
    exact (unplaced noLine).1

end Occurrence

end SemanticTokens
