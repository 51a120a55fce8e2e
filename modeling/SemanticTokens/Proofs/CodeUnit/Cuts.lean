import SemanticTokens.Proofs.CodeUnit.Encoding

/-!
# Cutting ranges out of a line

A range of units holds a text if the line splits around it, with as many units
before the text and in the text as the range says.  A cut in UTF-8 or UTF-16
gives just the texts that its range holds, with one exception: in UTF-16 a
range without units gives the empty text at every offset within the line, also
between the two surrogates of a character.

In UTF-8 the bytes at both ends of the range tell whether it holds a text.  In
UTF-16 the units in the range do, if there are any, because no text begins or
ends with half a character.
-/

namespace SemanticTokens.CodeUnit

/-- Whether a text stands in a line as the whole characters of a range of
units. -/
def Occupies
    (unit : CodeUnit) (line covered : List Char) (start length : Nat) : Prop :=
  ∃ before after,
    line = before ++ covered ++ after ∧
      (unit.encode before).length = start ∧
        (unit.encode covered).length = length

/-! ## Ranges between boundaries -/

/-- A range holds a text if and only if it begins and ends at boundaries. -/
theorem exists_occupies_iff
    (unit : CodeUnit) (line : List Char) (start length : Nat) :
    (∃ covered, unit.Occupies line covered start length) ↔
      unit.IsBoundary line start ∧ unit.IsBoundary line (start + length) := by
  constructor
  · rintro ⟨covered, before, after, rfl, rfl, rfl⟩
    refine
      ⟨⟨before, covered ++ after, ?_, rfl⟩, before ++ covered, after, rfl, ?_⟩
    · rw [List.append_assoc]
    · rw [encode_append, List.length_append]
  · rintro ⟨⟨before, rest, split, rfl⟩, whole, after, otherSplit, reaches⟩
    rw [otherSplit] at split
    rcases List.append_eq_append_iff.mp split with
      ⟨covered, isBefore, _⟩ | ⟨covered, rfl, _⟩
    · -- The end of the range is no later than its start, so both are one place.
      rw [isBefore, encode_append, List.length_append] at reaches
      have noUnit : unit.size covered = 0 := by
        rw [← length_encode]
        omega
      have noLength : length = 0 := by
        omega
      refine ⟨[], whole, after, ?_, ?_, noLength.symm⟩
      · rw [List.append_nil, otherSplit]
      · rw [isBefore, (unit.size_eq_zero_iff covered).mp noUnit,
          List.append_nil]
    · refine ⟨covered, before, after, otherSplit, rfl, ?_⟩
      rw [encode_append, List.length_append] at reaches
      exact Nat.add_left_cancel reaches

theorem Occupies.length_eq
    {unit : CodeUnit} {line covered : List Char} {start length : Nat}
    (occupies : unit.Occupies line covered start length) :
    (unit.encode covered).length = length := by
  obtain ⟨_, _, _, _, reaches⟩ := occupies
  exact reaches

/-- The units in a range that holds a text are the units of this text. -/
theorem Occupies.take_drop_encode
    {unit : CodeUnit} {line covered : List Char} {start length : Nat}
    (occupies : unit.Occupies line covered start length) :
    start + length ≤ (unit.encode line).length ∧
      ((unit.encode line).drop start).take length = unit.encode covered := by
  obtain ⟨before, after, rfl, rfl, rfl⟩ := occupies
  rw [encode_append, encode_append, List.length_append, List.length_append]
  refine ⟨Nat.le_add_right _ _, ?_⟩
  rw [List.append_assoc, List.drop_left, List.take_left]

/-- A range that begins at a boundary holds every text whose units are in
it. -/
theorem occupies_of_isBoundary
    {unit : CodeUnit} {line covered : List Char} {start length : Nat}
    (begins : unit.IsBoundary line start)
    (within : start + length ≤ (unit.encode line).length)
    (units :
      ((unit.encode line).drop start).take length = unit.encode covered) :
    unit.Occupies line covered start length := by
  obtain ⟨before, rest, rfl, rfl⟩ := begins
  rw [encode_append, List.drop_left] at units
  have leads : covered <+: rest := by
    apply isPrefix_of_encode_isPrefix
    rw [← units]
    exact List.take_prefix _ _
  obtain ⟨after, rfl⟩ := leads
  refine ⟨before, after, ?_, rfl, ?_⟩
  · rw [List.append_assoc]
  · rw [← units, List.length_take]
    rw [encode_append, List.length_append] at within
    omega

/-- A range with some units that encode a text begins at a boundary. -/
theorem isBoundary_of_take_drop_encode
    {unit : CodeUnit} {line covered : List Char} {start length : Nat}
    (positive : 0 < length)
    (within : start + length ≤ (unit.encode line).length)
    (units :
      ((unit.encode line).drop start).take length = unit.encode covered) :
    unit.IsBoundary line start := by
  rw [isBoundary_iff]
  refine ⟨by omega, ?_⟩
  intro number isFirst
  have atStart : (unit.encode covered)[0]? = some number := by
    rw [← units, List.getElem?_take_of_lt positive, List.getElem?_drop]
    exact isFirst
  cases covered with
  | nil =>
      cases atStart
  | cons character rest =>
      obtain ⟨first, others, ofCharacter, begins, _⟩ :=
        unit.exists_unitsOf_eq_cons character
      rw [encode_cons, ofCharacter] at atStart
      rwa [← Option.some.inj atStart]

/-! ## What a cut gives -/

theorem cut?_utf8_eq_some_iff
    (line covered : List Char) (start length : UInt32) :
    cut? .utf8 line start length = some covered ↔
      Occupies .utf8 line covered start.toNat length.toNat := by
  have ends :
      (splitsAt (encode .utf8 line) start.toNat &&
          splitsAt (encode .utf8 line) (start.toNat + length.toNat)) = true ↔
        ∃ held, Occupies .utf8 line held start.toNat length.toNat := by
    rw [Bool.and_eq_true, splitsAt_encode_iff, splitsAt_encode_iff,
      exists_occupies_iff]
  simp only [cut?]
  by_cases held : ∃ held, Occupies .utf8 line held start.toNat length.toNat
  · rw [if_pos (ends.mpr held)]
    obtain ⟨other, occupies⟩ := held
    rw [occupies.take_drop_encode.2, decodeUtf8?_encode, Option.some.injEq]
    constructor
    · rintro rfl
      exact occupies
    · intro alsoOccupies
      apply encode_injective
      rw [← occupies.take_drop_encode.2, alsoOccupies.take_drop_encode.2]
  · rw [if_neg fun split => held (ends.mp split)]
    exact
      iff_of_false (Option.some_ne_none covered).symm
        fun occupies => held ⟨covered, occupies⟩

/-- A cut in UTF-16 gives the text whose units are those in the range. -/
theorem cut?_utf16_eq_some_iff_units
    (line covered : List Char) (start length : UInt32) :
    cut? .utf16 line start length = some covered ↔
      start.toNat + length.toNat ≤ (encode .utf16 line).length ∧
        ((encode .utf16 line).drop start.toNat).take length.toNat =
          encode .utf16 covered := by
  simp only [cut?]
  by_cases within :
      start.toNat + length.toNat ≤ (encode .utf16 line).length
  · rw [if_pos within]
    constructor
    · intro decoded
      refine ⟨within, (encode_of_decodeUtf16? ?_ decoded).symm⟩
      intro unit member
      exact
        lt_of_mem_encode_utf16 (List.mem_of_mem_drop (List.mem_of_mem_take member))
    · rintro ⟨_, units⟩
      rw [units, decodeUtf16?_encode]
  · rw [if_neg within]
    exact
      iff_of_false (Option.some_ne_none covered).symm
        fun reached => within reached.1

/-- No text begins or ends with half a pair of surrogates. -/
theorem cut?_utf16_eq_some_iff_of_ne_zero
    (line covered : List Char) (start : UInt32) {length : UInt32}
    (nonempty : length ≠ 0) :
    cut? .utf16 line start length = some covered ↔
      Occupies .utf16 line covered start.toNat length.toNat := by
  have positive : 0 < length.toNat :=
    Nat.pos_of_ne_zero fun isZero => nonempty (UInt32.toNat_inj.mp isZero)
  rw [cut?_utf16_eq_some_iff_units]
  constructor
  · rintro ⟨within, units⟩
    exact
      occupies_of_isBoundary
        (isBoundary_of_take_drop_encode positive within units) within units
  · exact Occupies.take_drop_encode

/-- Half a pair of surrogates is not missed where nothing is taken. -/
theorem cut?_utf16_zero_eq_some_iff
    (line covered : List Char) (start : UInt32) :
    cut? .utf16 line start 0 = some covered ↔
      covered = [] ∧ start.toNat ≤ (encode .utf16 line).length := by
  rw [cut?_utf16_eq_some_iff_units, UInt32.toNat_zero, List.take_zero,
    Nat.add_zero, and_comm, eq_comm (a := []), encode_eq_nil_iff]

theorem cut?_utf32_eq_some_iff
    (line covered : List Char) (start length : UInt32) :
    cut? .utf32 line start length = some covered ↔
      covered = (line.drop start.toNat).take length.toNat := by
  simp only [cut?, Option.some.injEq, eq_comm (b := covered)]

theorem Occupies.eq_nil
    {unit : CodeUnit} {line covered : List Char} {start : Nat}
    (occupies : unit.Occupies line covered start 0) :
    covered = [] := by
  rw [← unit.size_eq_zero_iff, ← length_encode, occupies.length_eq]

/-- A cut in UTF-8 gives the whole characters of its range.  So does a cut in
UTF-16, but for ranges without units, which give the empty text wherever they
lie within the line. -/
theorem cut?_eq_some_iff_occupies_or_empty
    (line covered : List Char) (start length : UInt32) :
    (cut? .utf8 line start length = some covered ↔
        Occupies .utf8 line covered start.toNat length.toNat) ∧
      (cut? .utf16 line start length = some covered ↔
        Occupies .utf16 line covered start.toNat length.toNat ∨
          covered = [] ∧ length = 0 ∧
            start.toNat ≤ (encode .utf16 line).length) := by
  refine ⟨cut?_utf8_eq_some_iff line covered start length, ?_⟩
  by_cases empty : length = 0
  · subst length
    rw [cut?_utf16_zero_eq_some_iff]
    constructor
    · rintro ⟨noText, within⟩
      exact Or.inr ⟨noText, rfl, within⟩
    · rintro (occupies | ⟨noText, _, within⟩)
      · exact ⟨occupies.eq_nil, occupies.take_drop_encode.1⟩
      · exact ⟨noText, within⟩
  · rw [cut?_utf16_eq_some_iff_of_ne_zero line covered start empty]
    constructor
    · exact Or.inl
    · rintro (occupies | ⟨_, isZero, _⟩)
      · exact occupies
      · exact (empty isZero).elim

/-- Between the two surrogates of a character lies no boundary, and still the
empty range there gives a text. -/
theorem cut?_utf16_of_empty_range_between_surrogates :
    cut? .utf16 ['𝛼'] 1 0 = some [] ∧ ¬ Occupies .utf16 ['𝛼'] [] 1 0 := by
  refine ⟨by decide, ?_⟩
  intro occupies
  have boundary : IsBoundary .utf16 ['𝛼'] 1 :=
    ((exists_occupies_iff .utf16 ['𝛼'] 1 0).mp ⟨[], occupies⟩).1
  exact boundary.not_goesOn.2 0xdefc rfl ⟨by decide, by decide⟩

/-! ## Cuts with some text -/

theorem Occupies.ne_nil_iff
    {unit : CodeUnit} {line covered : List Char} {start length : Nat}
    (occupies : unit.Occupies line covered start length) :
    covered ≠ [] ↔ 0 < length := by
  rw [← occupies.length_eq, List.length_pos_iff, ne_eq, ne_eq,
    encode_eq_nil_iff]

/-- Outside UTF-32 the nonempty cuts are those of ranges that hold a text. -/
theorem cut?_eq_some_and_ne_nil_iff
    {unit : CodeUnit} (splits : unit ≠ .utf32)
    (line covered : List Char) (start length : UInt32) :
    unit.cut? line start length = some covered ∧ covered ≠ [] ↔
      0 < length ∧
        unit.Occupies line covered start.toNat length.toNat := by
  rw [UInt32.lt_iff_toNat_lt, UInt32.toNat_zero]
  cases unit with
  | utf8 =>
      rw [cut?_utf8_eq_some_iff, and_comm]
      exact and_congr_left fun occupies => occupies.ne_nil_iff
  | utf16 =>
      by_cases empty : length = 0
      · subst length
        rw [cut?_utf16_zero_eq_some_iff]
        constructor
        · rintro ⟨⟨noText, _⟩, someText⟩
          exact (someText noText).elim
        · rintro ⟨positive, _⟩
          exact (Nat.lt_irrefl 0 positive).elim
      · rw [cut?_utf16_eq_some_iff_of_ne_zero line covered start empty,
          and_comm]
        exact and_congr_left fun occupies => occupies.ne_nil_iff
  | utf32 =>
      exact (splits rfl).elim

/-- The nonempty cuts of UTF-32 reach from the start of the range to its end or
the end of the line. -/
theorem cut?_utf32_eq_some_and_ne_nil_iff
    (line covered : List Char) (start length : UInt32) :
    cut? .utf32 line start length = some covered ∧ covered ≠ [] ↔
      0 < length ∧ start.toNat < line.length ∧
        covered =
          (line.take (min (start.toNat + length.toNat) line.length)).drop
            start.toNat := by
  have sameCut :
      (line.take (min (start.toNat + length.toNat) line.length)).drop
          start.toNat =
        (line.drop start.toNat).take length.toNat := by
    rw [List.drop_take, List.take_eq_take_iff, List.length_drop]
    omega
  rw [cut?_utf32_eq_some_iff, sameCut, UInt32.lt_iff_toNat_lt,
    UInt32.toNat_zero]
  constructor
  · rintro ⟨rfl, someText⟩
    have positive := List.length_pos_iff.mpr someText
    rw [List.length_take, List.length_drop] at positive
    exact ⟨by omega, by omega, rfl⟩
  · rintro ⟨positive, within, rfl⟩
    refine ⟨rfl, ?_⟩
    rw [← List.length_pos_iff, List.length_take, List.length_drop]
    omega

/-! ## Measured parts -/

/-- Cutting a line where a text begins and by as many units as it has gives
this text. -/
theorem cut?_append
    {unit : CodeUnit} {before covered after : List Char}
    {start length : UInt32}
    (begins : start.toNat = unit.size before)
    (reaches : length.toNat = unit.size covered) :
    unit.cut? (before ++ covered ++ after) start length = some covered := by
  have occupies :
      unit.Occupies (before ++ covered ++ after) covered start.toNat
        length.toNat := by
    refine ⟨before, after, rfl, ?_, ?_⟩
    · rw [length_encode, begins]
    · rw [length_encode, reaches]
  cases unit with
  | utf8 =>
      exact (cut?_utf8_eq_some_iff _ _ _ _).mpr occupies
  | utf16 =>
      exact (cut?_utf16_eq_some_iff_units _ _ _ _).mpr occupies.take_drop_encode
  | utf32 =>
      rw [cut?_utf32_eq_some_iff, begins, reaches, size_utf32, size_utf32,
        List.append_assoc, List.drop_left, List.take_left]

/-- A line is cut where one of its parts begins, by as many units as the next
part has, and this part comes out: measuring and cutting count alike. -/
theorem cut?_measure_append
    {unit : CodeUnit} {before covered : List Char} (after : List Char)
    (beforeFits : (unit.encode before).length < UInt32.size)
    (coveredFits : (unit.encode covered).length < UInt32.size) :
    unit.cut? (before ++ covered ++ after) (unit.measure before)
        (unit.measure covered) =
      some covered := by
  rw [length_encode] at beforeFits coveredFits
  exact cut?_append (toNat_measure beforeFits) (toNat_measure coveredFits)

/-- Two surrogate pairs, one before the part and one at its end. -/
theorem cut?_measure_append_around_surrogates :
    (encode .utf16 "s𝛼".toList).length < UInt32.size ∧
      (encode .utf16 "β𝛼".toList).length < UInt32.size ∧
      cut? .utf16 "s𝛼β𝛼 + y".toList 3 3 = some "β𝛼".toList := by
  have beforeFits : (encode .utf16 "s𝛼".toList).length < UInt32.size := by
    decide
  have coveredFits : (encode .utf16 "β𝛼".toList).length < UInt32.size := by
    decide
  refine ⟨beforeFits, coveredFits, ?_⟩
  have cut := cut?_measure_append " + y".toList beforeFits coveredFits
  have begins : measure .utf16 "s𝛼".toList = 3 := by
    decide
  have reaches : measure .utf16 "β𝛼".toList = 3 := by
    decide
  have whole :
      "s𝛼".toList ++ "β𝛼".toList ++ " + y".toList =
        "s𝛼β𝛼 + y".toList := by
    decide
  rw [begins, reaches, whole] at cut
  exact cut

end SemanticTokens.CodeUnit
