/-!
# Code units

Columns and lengths count code units of one encoding.  The same unit measures a
text and cuts a range out of a line.

A cut in UTF-8 or UTF-16 takes the units of the line in a range and reads them
as a text.  In UTF-8 the line must split at both ends of the range, so that none
of its characters is torn.  In UTF-16 nothing is asked of the ends, but half a
pair of surrogates is no text.  In UTF-32, where no character can be split, a
range that leaves the line is cut short.
-/

namespace SemanticTokens

/-- The code unit in which positions are counted. -/
inductive CodeUnit where
  | utf8
  | utf16
  | utf32
  deriving DecidableEq, Repr

namespace CodeUnit

def all : List CodeUnit :=
  [.utf8, .utf16, .utf32]

def name : CodeUnit → String
  | .utf8 => "utf-8"
  | .utf16 => "utf-16"
  | .utf32 => "utf-32"

def ofName? (name : String) : Option CodeUnit :=
  all.find? fun unit => unit.name == name

def unsupported (name : String) : String :=
  "unsupported position encoding `" ++ name ++ "`"

/-! ## Units -/

def isLeadingSurrogate (unit : Nat) : Bool :=
  0xd800 ≤ unit && unit ≤ 0xdbff

def isTrailingSurrogate (unit : Nat) : Bool :=
  0xdc00 ≤ unit && unit ≤ 0xdfff

def surrogatePair (leading trailing : Nat) : Char :=
  Char.ofNat (0x10000 + (leading - 0xd800) * 0x400 + (trailing - 0xdc00))

/-- The units of one character. -/
def unitsOf : CodeUnit → Char → List Nat
  | .utf8, character => (String.utf8EncodeChar character).map UInt8.toNat
  | .utf16, character =>
      if character.toNat < 0x10000 then
        [character.toNat]
      else
        [0xd800 + (character.toNat - 0x10000) / 0x400,
          0xdc00 + (character.toNat - 0x10000) % 0x400]
  | .utf32, character => [character.toNat]

def encode (unit : CodeUnit) (text : List Char) : List Nat :=
  text.flatMap unit.unitsOf

/-- Whether a unit goes on with a character that a unit before it began. -/
def GoesOn : CodeUnit → Nat → Prop
  | .utf8, number => 0x80 ≤ number ∧ number < 0xc0
  | .utf16, number => 0xdc00 ≤ number ∧ number < 0xe000
  | .utf32, _ => False

instance (unit : CodeUnit) (number : Nat) : Decidable (unit.GoesOn number) :=
  match unit with
  | .utf8 => inferInstanceAs (Decidable (0x80 ≤ number ∧ number < 0xc0))
  | .utf16 => inferInstanceAs (Decidable (0xdc00 ≤ number ∧ number < 0xe000))
  | .utf32 => inferInstanceAs (Decidable False)

/-! ## Counting -/

def width : CodeUnit → Char → Nat
  | .utf8, character => character.utf8Size
  | .utf16, character => if character.toNat < 0x10000 then 1 else 2
  | .utf32, _ => 1

def size (unit : CodeUnit) (text : List Char) : Nat :=
  text.foldr (fun character rest => unit.width character + rest) 0

/-- Number of units of a text as a stream carries it, modulo `2 ^ 32`. -/
def measure (unit : CodeUnit) (text : List Char) : UInt32 :=
  UInt32.ofNat (unit.size text)

/-! ## Cutting -/

/-- Reads bytes as a text, if they are one. -/
def decodeUtf8? (bytes : List Nat) : Option (List Char) :=
  (bytes.map UInt8.ofNat).toByteArray.utf8Decode?.map Array.toList

/-- Reads units of sixteen bits as a text, if they are one. -/
def decodeUtf16? : List Nat → Option (List Char)
  | [] => some []
  | unit :: rest =>
      if isLeadingSurrogate unit then
        match rest with
        | [] => none
        | next :: rest =>
            if isTrailingSurrogate next then
              (decodeUtf16? rest).map (surrogatePair unit next :: ·)
            else
              none
      else if isTrailingSurrogate unit then
        none
      else
        (decodeUtf16? rest).map (Char.ofNat unit :: ·)

/-- Whether a text may be split at an offset into its bytes: at their end, or
before a byte that begins a character. -/
def splitsAt (bytes : List Nat) (offset : Nat) : Bool :=
  match bytes[offset]? with
  | some byte => !GoesOn .utf8 byte
  | none => offset == bytes.length

def cut? (unit : CodeUnit) (line : List Char) (start length : UInt32) :
    Option (List Char) :=
  let first := start.toNat
  let count := length.toNat
  match unit with
  | .utf8 =>
      let bytes := encode .utf8 line
      if splitsAt bytes first && splitsAt bytes (first + count) then
        decodeUtf8? ((bytes.drop first).take count)
      else
        none
  | .utf16 =>
      let units := encode .utf16 line
      if first + count ≤ units.length then
        decodeUtf16? ((units.drop first).take count)
      else
        none
  | .utf32 => some ((line.drop first).take count)

/-! ## Surrogates -/

theorem not_surrogate
    (character : Char) :
    isTrailingSurrogate character.toNat = false ∧
      isLeadingSurrogate character.toNat = false := by
  have valid : character.toNat.isValidChar := character.valid
  simp only [isTrailingSurrogate, isLeadingSurrogate,
    Bool.and_eq_false_iff, decide_eq_false_iff_not]
  simp only [Nat.isValidChar] at valid
  omega

theorem isLeadingSurrogate_of_offset
    {offset : Nat} (fits : offset < 0x100000) :
    isLeadingSurrogate (0xd800 + offset / 0x400) = true := by
  simp only [isLeadingSurrogate, Bool.and_eq_true, decide_eq_true_eq]
  omega

theorem isTrailingSurrogate_of_offset
    (offset : Nat) :
    isTrailingSurrogate (0xdc00 + offset % 0x400) = true := by
  simp only [isTrailingSurrogate, Bool.and_eq_true, decide_eq_true_eq]
  omega

theorem isTrailingSurrogate_of_isLeadingSurrogate
    {unit : Nat} (leads : isLeadingSurrogate unit = true) :
    isTrailingSurrogate unit = false := by
  simp only [isLeadingSurrogate, Bool.and_eq_true, decide_eq_true_eq] at leads
  simp only [isTrailingSurrogate, Bool.and_eq_false_iff,
    decide_eq_false_iff_not]
  omega

theorem surrogatePair_of_offset
    {character : Char} {offset : Nat}
    (amount : character.toNat = 0x10000 + offset) :
    surrogatePair (0xd800 + offset / 0x400) (0xdc00 + offset % 0x400) =
      character := by
  have same :
      0x10000 + (0xd800 + offset / 0x400 - 0xd800) * 0x400 +
          (0xdc00 + offset % 0x400 - 0xdc00) =
        character.toNat := by
    omega
  rw [surrogatePair, same, Char.ofNat_toNat]

/-! ## Sizes -/

theorem width_pos (unit : CodeUnit) (character : Char) :
    0 < unit.width character := by
  cases unit with
  | utf8 => exact character.utf8Size_pos
  | utf16 =>
      simp only [width]
      split <;> decide
  | utf32 => exact Nat.one_pos

@[simp]
theorem size_nil (unit : CodeUnit) : unit.size [] = 0 :=
  rfl

@[simp]
theorem size_cons (unit : CodeUnit) (character : Char) (text : List Char) :
    unit.size (character :: text) = unit.width character + unit.size text :=
  rfl

@[simp]
theorem size_append (unit : CodeUnit) (left right : List Char) :
    unit.size (left ++ right) = unit.size left + unit.size right := by
  induction left with
  | nil =>
      rw [List.nil_append, size_nil, Nat.zero_add]
  | cons character rest inductionHypothesis =>
      rw [List.cons_append, size_cons, size_cons, inductionHypothesis,
        Nat.add_assoc]

theorem size_eq_zero_iff
    (unit : CodeUnit) (text : List Char) :
    unit.size text = 0 ↔ text = [] := by
  cases text with
  | nil =>
      simp
  | cons character rest =>
      have positive := unit.width_pos character
      simp only [size_cons, reduceCtorEq, iff_false]
      omega

theorem size_utf32
    (text : List Char) :
    size .utf32 text = text.length := by
  induction text with
  | nil =>
      rfl
  | cons character rest inductionHypothesis =>
      rw [size_cons, inductionHypothesis, List.length_cons, Nat.add_comm]
      rfl

theorem toNat_measure
    {unit : CodeUnit} {text : List Char}
    (fits : unit.size text < UInt32.size) :
    (unit.measure text).toNat = unit.size text :=
  UInt32.toNat_ofNat_of_lt fits

end CodeUnit

end SemanticTokens
