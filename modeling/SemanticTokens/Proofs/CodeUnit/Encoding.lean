import SemanticTokens.CodeUnit

/-!
# The units of a text

Encoding a text gives the numbers of its units: bytes in UTF-8, units of
sixteen bits in UTF-16, where a character from U+10000 on is written as a pair
of surrogates, and code points in UTF-32.  There are as many of them as the
size of the text says.  Decoding them gives the text back.

Every encoding synchronizes itself.  The first unit of a character can be told
from the units behind it, so that the units of a text show where its
characters begin, and no character is encoded as the beginning of another one.
-/

namespace SemanticTokens.CodeUnit

/-! ## Units of one character -/

theorem length_unitsOf
    (unit : CodeUnit) (character : Char) :
    (unit.unitsOf character).length = unit.width character := by
  cases unit with
  | utf8 =>
      rw [unitsOf, List.length_map, String.length_utf8EncodeChar]
      rfl
  | utf16 =>
      rw [unitsOf, width]
      by_cases basic : character.toNat < 0x10000
      · rw [if_pos basic, if_pos basic]
        rfl
      · rw [if_neg basic, if_neg basic]
        rfl
  | utf32 =>
      rfl

theorem goesOn_lowBits
    (number : Nat) :
    GoesOn .utf8 ((number % 64 + 128) % 256) := by
  rw [GoesOn]
  omega

theorem exists_unitsOf_utf8_eq_cons
    (character : Char) :
    ∃ first others,
      unitsOf .utf8 character = first :: others ∧
        ¬ GoesOn .utf8 first ∧
        ∀ number ∈ others, GoesOn .utf8 number := by
  rw [unitsOf, String.utf8EncodeChar]
  generalize character.val.toNat = codePoint
  by_cases oneByte : codePoint ≤ 127
  · rw [if_pos oneByte]
    refine ⟨_, _, rfl, ?_, nofun⟩
    rw [UInt8.toNat_ofNat', GoesOn]
    omega
  · rw [if_neg oneByte]
    by_cases twoBytes : codePoint ≤ 2047
    · rw [if_pos twoBytes]
      refine ⟨_, _, rfl, ?_, by simp [goesOn_lowBits]⟩
      rw [UInt8.toNat_ofNat', GoesOn]
      omega
    · rw [if_neg twoBytes]
      by_cases threeBytes : codePoint ≤ 65535
      · rw [if_pos threeBytes]
        refine ⟨_, _, rfl, ?_, by simp [goesOn_lowBits]⟩
        rw [UInt8.toNat_ofNat', GoesOn]
        omega
      · rw [if_neg threeBytes]
        refine ⟨_, _, rfl, ?_, by simp [goesOn_lowBits]⟩
        rw [UInt8.toNat_ofNat', GoesOn]
        omega

/-- A character begins with a unit that goes on with no other one, and all its
other units do. -/
theorem exists_unitsOf_eq_cons
    (unit : CodeUnit) (character : Char) :
    ∃ first others,
      unit.unitsOf character = first :: others ∧
        ¬ unit.GoesOn first ∧
        ∀ number ∈ others, unit.GoesOn number := by
  cases unit with
  | utf8 =>
      exact exists_unitsOf_utf8_eq_cons character
  | utf16 =>
      have valid : character.toNat.isValidChar := character.valid
      simp only [Nat.isValidChar] at valid
      rw [unitsOf]
      by_cases basic : character.toNat < 0x10000
      · rw [if_pos basic]
        refine ⟨_, _, rfl, ?_, nofun⟩
        rw [GoesOn]
        omega
      · rw [if_neg basic]
        refine ⟨_, _, rfl, ?_, ?_⟩
        · rw [GoesOn]
          omega
        · rw [List.forall_mem_singleton, GoesOn]
          omega
  | utf32 =>
      exact ⟨_, _, rfl, id, nofun⟩

theorem eq_of_utf8EncodeChar_isPrefix
    {left right : Char}
    (begins : String.utf8EncodeChar left <+: String.utf8EncodeChar right) :
    left = right := by
  obtain ⟨others, same⟩ := begins
  have readLeft :=
    @ByteArray.utf8DecodeChar?_utf8EncodeChar_append others.toByteArray left
  have readRight :=
    @ByteArray.utf8DecodeChar?_utf8EncodeChar_append ByteArray.empty right
  rw [← List.toByteArray_append, same] at readLeft
  rw [ByteArray.append_empty, readLeft] at readRight
  exact Option.some.inj readRight

theorem eq_of_unitsOf_utf16_isPrefix
    {left right : Char}
    (begins : unitsOf .utf16 left <+: unitsOf .utf16 right) :
    left = right := by
  have leftValid : left.toNat.isValidChar := left.valid
  have rightValid : right.toNat.isValidChar := right.valid
  simp only [Nat.isValidChar] at leftValid rightValid
  rw [unitsOf, unitsOf] at begins
  rw [← Char.toNat_inj]
  by_cases leftBasic : left.toNat < 0x10000
  · by_cases rightBasic : right.toNat < 0x10000
    · rw [if_pos leftBasic, if_pos rightBasic, List.cons_prefix_cons] at begins
      exact begins.1
    · -- The first unit of a pair is a surrogate, and so no character.
      rw [if_pos leftBasic, if_neg rightBasic, List.cons_prefix_cons] at begins
      omega
  · by_cases rightBasic : right.toNat < 0x10000
    · rw [if_neg leftBasic, if_pos rightBasic] at begins
      have shorter := begins.length_le
      simp only [List.length_cons, List.length_nil] at shorter
      omega
    · rw [if_neg leftBasic, if_neg rightBasic, List.cons_prefix_cons,
        List.cons_prefix_cons] at begins
      omega

/-- No character is encoded as the beginning of another one. -/
theorem eq_of_unitsOf_isPrefix
    {unit : CodeUnit} {left right : Char}
    (begins : unit.unitsOf left <+: unit.unitsOf right) :
    left = right := by
  cases unit with
  | utf8 =>
      have injective : Function.Injective UInt8.toNat :=
        fun _ _ => UInt8.toNat_inj.mp
      exact
        eq_of_utf8EncodeChar_isPrefix
          ((List.prefix_map_iff_of_injective injective).mp begins)
  | utf16 =>
      exact eq_of_unitsOf_utf16_isPrefix begins
  | utf32 =>
      exact Char.toNat_inj.mp (List.cons_prefix_cons.mp begins).1

/-! ## Units of a text -/

theorem encode_cons
    (unit : CodeUnit) (character : Char) (text : List Char) :
    unit.encode (character :: text) =
      unit.unitsOf character ++ unit.encode text :=
  List.flatMap_cons

theorem encode_append
    (unit : CodeUnit) (left right : List Char) :
    unit.encode (left ++ right) = unit.encode left ++ unit.encode right :=
  List.flatMap_append

theorem length_encode
    (unit : CodeUnit) (text : List Char) :
    (unit.encode text).length = unit.size text := by
  induction text with
  | nil =>
      rfl
  | cons character rest inductionHypothesis =>
      rw [encode_cons, List.length_append, length_unitsOf,
        inductionHypothesis, size_cons]

theorem encode_eq_nil_iff
    (unit : CodeUnit) (text : List Char) :
    unit.encode text = [] ↔ text = [] := by
  rw [← List.length_eq_zero_iff, length_encode, size_eq_zero_iff]

/-- A text whose units begin another text is the beginning of that text. -/
theorem isPrefix_of_encode_isPrefix
    {unit : CodeUnit} {covered text : List Char}
    (begins : unit.encode covered <+: unit.encode text) :
    covered <+: text := by
  induction covered generalizing text with
  | nil =>
      exact List.nil_prefix
  | cons character rest inductionHypothesis =>
      cases text with
      | nil =>
          have noText :=
            (unit.encode_eq_nil_iff _).mp (List.prefix_nil.mp begins)
          cases noText
      | cons other text =>
          rw [encode_cons, encode_cons] at begins
          have ofCharacter :=
            (List.prefix_append (unit.unitsOf character) _).trans begins
          have ofOther := List.prefix_append (unit.unitsOf other) (unit.encode text)
          have same : character = other := by
            rcases List.prefix_or_prefix_of_prefix ofCharacter ofOther with
              before | before
            · exact eq_of_unitsOf_isPrefix before
            · exact (eq_of_unitsOf_isPrefix before).symm
          subst other
          rw [List.prefix_append_right_inj] at begins
          rw [List.cons_prefix_cons]
          exact ⟨rfl, inductionHypothesis begins⟩

theorem encode_injective
    {unit : CodeUnit} {left right : List Char}
    (same : unit.encode left = unit.encode right) :
    left = right := by
  have leftBegins : unit.encode left <+: unit.encode right :=
    ⟨[], by rw [List.append_nil, same]⟩
  have rightBegins : unit.encode right <+: unit.encode left :=
    ⟨[], by rw [List.append_nil, same]⟩
  exact
    (isPrefix_of_encode_isPrefix leftBegins).eq_of_length_le
      (isPrefix_of_encode_isPrefix rightBegins).length_le

/-! ## Decoding -/

theorem decodeUtf8?_encode
    (text : List Char) :
    decodeUtf8? (encode .utf8 text) = some text := by
  have bytes :
      (encode .utf8 text).map UInt8.ofNat =
        text.flatMap String.utf8EncodeChar := by
    simp only [encode, unitsOf, List.map_flatMap, List.map_map]
    congr 1
    funext character
    exact List.map_id'' (fun _ => UInt8.ofNat_toNat) _
  rw [decodeUtf8?, bytes]
  change (List.utf8Encode text).utf8Decode?.map Array.toList = some text
  rw [List.utf8Decode?_utf8Encode]
  rfl

theorem decodeUtf16?_cons_of_not_surrogate
    {unit : Nat} (notLeading : isLeadingSurrogate unit = false)
    (notTrailing : isTrailingSurrogate unit = false) (rest : List Nat) :
    decodeUtf16? (unit :: rest) =
      (decodeUtf16? rest).map (Char.ofNat unit :: ·) := by
  simp only [decodeUtf16?.eq_def (unit :: rest), notLeading, notTrailing,
    Bool.false_eq_true, if_false]

theorem decodeUtf16?_cons_cons_of_surrogates
    {leading trailing : Nat} (leads : isLeadingSurrogate leading = true)
    (trails : isTrailingSurrogate trailing = true) (rest : List Nat) :
    decodeUtf16? (leading :: trailing :: rest) =
      (decodeUtf16? rest).map (surrogatePair leading trailing :: ·) := by
  rw [decodeUtf16?, if_pos leads, if_pos trails]

theorem decodeUtf16?_unitsOf_append
    (character : Char) (units : List Nat) :
    decodeUtf16? (unitsOf .utf16 character ++ units) =
      (decodeUtf16? units).map (character :: ·) := by
  obtain ⟨notTrailing, notLeading⟩ := not_surrogate character
  rw [unitsOf]
  by_cases basic : character.toNat < 0x10000
  · rw [if_pos basic, List.singleton_append,
      decodeUtf16?_cons_of_not_surrogate notLeading notTrailing,
      Char.ofNat_toNat]
  · have valid : character.toNat.isValidChar := character.valid
    simp only [Nat.isValidChar] at valid
    obtain ⟨offset, amount⟩ :=
      Nat.exists_eq_add_of_le (Nat.le_of_not_lt basic)
    rw [if_neg basic, amount, Nat.add_sub_cancel_left, List.cons_append,
      List.singleton_append,
      decodeUtf16?_cons_cons_of_surrogates
        (isLeadingSurrogate_of_offset (by omega))
        (isTrailingSurrogate_of_offset offset),
      surrogatePair_of_offset amount]

theorem decodeUtf16?_encode
    (text : List Char) :
    decodeUtf16? (encode .utf16 text) = some text := by
  induction text with
  | nil =>
      rfl
  | cons character rest inductionHypothesis =>
      rw [encode_cons, decodeUtf16?_unitsOf_append, inductionHypothesis,
        Option.map_some]

theorem toNat_ofNat_of_isValidChar
    {number : Nat} (valid : number.isValidChar) :
    (Char.ofNat number).toNat = number := by
  rw [Char.ofNat, dif_pos valid]
  rfl

theorem unitsOf_utf16_ofNat
    {unit : Nat} (fits : unit < 0x10000)
    (notLeading : ¬ isLeadingSurrogate unit = true)
    (notTrailing : ¬ isTrailingSurrogate unit = true) :
    unitsOf .utf16 (Char.ofNat unit) = [unit] := by
  simp only [isLeadingSurrogate, isTrailingSurrogate, Bool.and_eq_true,
    decide_eq_true_eq] at notLeading notTrailing
  have valid : unit.isValidChar := by
    rw [Nat.isValidChar]
    omega
  rw [unitsOf, toNat_ofNat_of_isValidChar valid, if_pos fits]

theorem unitsOf_utf16_surrogatePair
    {leading trailing : Nat} (leads : isLeadingSurrogate leading = true)
    (trails : isTrailingSurrogate trailing = true) :
    unitsOf .utf16 (surrogatePair leading trailing) = [leading, trailing] := by
  simp only [isLeadingSurrogate, isTrailingSurrogate, Bool.and_eq_true,
    decide_eq_true_eq] at leads trails
  have valid :
      (0x10000 + (leading - 0xd800) * 0x400 +
        (trailing - 0xdc00)).isValidChar := by
    rw [Nat.isValidChar]
    omega
  rw [unitsOf, surrogatePair, toNat_ofNat_of_isValidChar valid,
    if_neg (by omega), List.cons.injEq, List.cons.injEq]
  exact ⟨by omega, by omega, rfl⟩

/-- Units of sixteen bits that are read as a text are the units of it. -/
theorem encode_of_decodeUtf16?
    {units : List Nat} {text : List Char}
    (fit : ∀ unit ∈ units, unit < 0x10000)
    (decoded : decodeUtf16? units = some text) :
    encode .utf16 text = units := by
  fun_induction decodeUtf16? units generalizing text with
  | case1 =>
      rw [← Option.some.inj decoded]
      rfl
  | case2 =>
      cases decoded
  | case3 unit leads next rest trails inductionHypothesis =>
      obtain ⟨others, ofRest, rfl⟩ := Option.map_eq_some_iff.mp decoded
      have fitRest : ∀ unit ∈ rest, unit < 0x10000 := by
        intro unit member
        exact fit unit (.tail _ (.tail _ member))
      rw [encode_cons, unitsOf_utf16_surrogatePair leads trails,
        inductionHypothesis fitRest ofRest]
      rfl
  | case4 =>
      cases decoded
  | case5 =>
      cases decoded
  | case6 unit rest notLeading notTrailing inductionHypothesis =>
      obtain ⟨others, ofRest, rfl⟩ := Option.map_eq_some_iff.mp decoded
      obtain ⟨fits, fitRest⟩ := List.forall_mem_cons.mp fit
      rw [encode_cons, unitsOf_utf16_ofNat fits notLeading notTrailing,
        inductionHypothesis fitRest ofRest]
      rfl

theorem lt_of_mem_encode_utf16
    {text : List Char} {unit : Nat} (member : unit ∈ encode .utf16 text) :
    unit < 0x10000 := by
  rw [encode, List.mem_flatMap] at member
  obtain ⟨character, _, ofCharacter⟩ := member
  have valid : character.toNat.isValidChar := character.valid
  simp only [Nat.isValidChar] at valid
  rw [unitsOf] at ofCharacter
  by_cases basic : character.toNat < 0x10000
  · rw [if_pos basic, List.mem_singleton] at ofCharacter
    omega
  · rw [if_neg basic, List.mem_cons, List.mem_singleton] at ofCharacter
    omega

/-! ## Boundaries -/

/-- Whether a number of units reaches from the start of a line to a place
between its characters, or to one of its ends. -/
def IsBoundary (unit : CodeUnit) (line : List Char) (offset : Nat) : Prop :=
  ∃ before after,
    line = before ++ after ∧ (unit.encode before).length = offset

theorem IsBoundary.cons
    {unit : CodeUnit} {line : List Char} {offset : Nat}
    (boundary : unit.IsBoundary line offset) (character : Char) :
    unit.IsBoundary (character :: line)
      ((unit.unitsOf character).length + offset) := by
  obtain ⟨before, after, rfl, rfl⟩ := boundary
  refine ⟨character :: before, after, rfl, ?_⟩
  rw [encode_cons, List.length_append]

theorem IsBoundary.not_goesOn
    {unit : CodeUnit} {line : List Char} {offset : Nat}
    (boundary : unit.IsBoundary line offset) :
    offset ≤ (unit.encode line).length ∧
      ∀ number ∈ (unit.encode line)[offset]?, ¬ unit.GoesOn number := by
  obtain ⟨before, after, rfl, rfl⟩ := boundary
  rw [encode_append]
  constructor
  · rw [List.length_append]
    exact Nat.le_add_right _ _
  · rw [List.getElem?_append_right (Nat.le_refl _), Nat.sub_self]
    cases after with
    | nil =>
        exact nofun
    | cons character after =>
        obtain ⟨first, others, units, begins, _⟩ :=
          unit.exists_unitsOf_eq_cons character
        rw [encode_cons, units]
        rintro number isFirst
        rwa [Option.mem_some_iff.mp isFirst] at begins

theorem goesOn_getElem_unitsOf
    (unit : CodeUnit) (character : Char) {offset : Nat}
    (inside : offset + 1 < (unit.unitsOf character).length) :
    unit.GoesOn (unit.unitsOf character)[offset + 1] := by
  obtain ⟨first, others, units, _, goOn⟩ :=
    unit.exists_unitsOf_eq_cons character
  simp only [units, List.getElem_cons_succ]
  exact goOn _ (List.getElem_mem _)

/-- The boundaries of a line can be told from its units: they are the offsets
within the line at which no character goes on. -/
theorem isBoundary_iff
    (unit : CodeUnit) (line : List Char) (offset : Nat) :
    unit.IsBoundary line offset ↔
      offset ≤ (unit.encode line).length ∧
        ∀ number ∈ (unit.encode line)[offset]?, ¬ unit.GoesOn number := by
  constructor
  · exact IsBoundary.not_goesOn
  · induction line generalizing offset with
    | nil =>
        rintro ⟨within, _⟩
        exact ⟨[], [], rfl, (Nat.le_zero.mp within).symm⟩
    | cons character rest inductionHypothesis =>
        rintro ⟨within, begins⟩
        rw [encode_cons] at within begins
        by_cases inside : offset < (unit.unitsOf character).length
        · -- The offset lies in the first character, and so before it.
          cases offset with
          | zero =>
              exact ⟨[], _, rfl, rfl⟩
          | succ offset =>
              rw [List.getElem?_append_left inside,
                List.getElem?_eq_getElem inside] at begins
              have goesOn := unit.goesOn_getElem_unitsOf character inside
              exact (begins _ rfl goesOn).elim
        · obtain ⟨further, rfl⟩ :=
            Nat.exists_eq_add_of_le (Nat.le_of_not_lt inside)
          rw [List.length_append] at within
          rw [List.getElem?_append_right (Nat.le_add_right _ _),
            Nat.add_sub_cancel_left] at begins
          exact
            (inductionHypothesis further
              ⟨Nat.le_of_add_le_add_left within, begins⟩).cons character

/-- The bytes of a line are split at its boundaries. -/
theorem splitsAt_encode_iff
    (line : List Char) (offset : Nat) :
    splitsAt (encode .utf8 line) offset = true ↔
      IsBoundary .utf8 line offset := by
  rw [isBoundary_iff, splitsAt]
  cases at' : (encode .utf8 line)[offset]? with
  | none =>
      have past := List.getElem?_eq_none_iff.mp at'
      simp only [beq_iff_eq]
      exact ⟨fun atEnd => ⟨Nat.le_of_eq atEnd, nofun⟩, fun ⟨within, _⟩ =>
        Nat.le_antisymm within past⟩
  | some byte =>
      obtain ⟨within, _⟩ := List.getElem?_eq_some_iff.mp at'
      simp only [Bool.not_eq_true', decide_eq_false_iff_not]
      constructor
      · rintro begins
        refine ⟨Nat.le_of_lt within, ?_⟩
        rintro number isByte
        rwa [← Option.mem_some_iff.mp isByte]
      · rintro ⟨_, begins⟩
        exact begins byte rfl

end SemanticTokens.CodeUnit
