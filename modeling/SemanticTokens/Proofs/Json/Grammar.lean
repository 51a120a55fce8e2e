/-!
# The grammar of values

Which texts are texts of a value, said without regard to how a text is read.
Numbers are kept as they are written, since a reader may tell apart what is
equal in amount.  A character of a string may be written as it is or by an
escape, in small or in capital hexadecimal digits; a character past `U+FFFF`
takes a pair of escapes, and there is no way to write half a pair.  Keys of an
object need not differ.
-/

namespace SemanticTokens.Json

/-- A value, with its numbers as they are written. -/
inductive Value where
  | null
  | boolean (value : Bool)
  | number (numeral : List Char)
  | string (value : String)
  | list (elements : List Value)
  | object (members : List (String × Value))

def Value.ofWord : Option UInt32 → Value
  | none => .null
  | some word => .number (Nat.toDigits 10 word.toNat)

def Blank (text : List Char) : Prop :=
  ∀ character ∈ text, character ∈ [' ', '\n', '\t', '\r']

instance (text : List Char) : Decidable (Blank text) :=
  List.decidableBAll (· ∈ [' ', '\n', '\t', '\r']) text

/-! ## Numbers -/

def AreDigits (text : List Char) : Prop :=
  ∀ character ∈ text, character.isDigit = true

/-- A natural number without leading zeros. -/
inductive WholeForm : List Char → Prop
  | zero :
      WholeForm ['0']
  | digits {first : Char} {others : List Char} :
      first.isDigit = true → first ≠ '0' → AreDigits others →
      WholeForm (first :: others)

inductive FractionForm : List Char → Prop
  | none :
      FractionForm []
  | digits {digits : List Char} :
      digits ≠ [] → AreDigits digits →
      FractionForm ('.' :: digits)

inductive ExponentForm : List Char → Prop
  | none :
      ExponentForm []
  | digits {mark : Char} {sign digits : List Char} :
      mark ∈ ['e', 'E'] → sign ∈ [[], ['+'], ['-']] →
      digits ≠ [] → AreDigits digits →
      ExponentForm (mark :: (sign ++ digits))

inductive NumeralForm : List Char → Prop
  | parts {sign whole fraction exponent : List Char} :
      sign ∈ [[], ['-']] → WholeForm whole →
      FractionForm fraction → ExponentForm exponent →
      NumeralForm (sign ++ (whole ++ (fraction ++ exponent)))

/-! ## Strings -/

inductive HexDigitForm : Nat → Char → Prop
  | small {value : Nat} :
      value < 16 → HexDigitForm value (Nat.digitChar value)
  | capital {value : Nat} :
      value < 16 → HexDigitForm value (Nat.digitChar value).toUpper

inductive HexForm : Nat → List Char → Prop
  | digits {valueA valueB valueC valueD : Nat} {a b c d : Char} :
      HexDigitForm valueA a → HexDigitForm valueB b →
      HexDigitForm valueC c → HexDigitForm valueD d →
      HexForm (((valueA * 16 + valueB) * 16 + valueC) * 16 + valueD)
        [a, b, c, d]

def letterEscapes : List (Char × Char) :=
  [('"', '"'), ('\\', '\\'), ('/', '/'), ('b', '\x08'), ('f', '\x0c'),
    ('n', '\n'), ('r', '\r'), ('t', '\t')]

inductive CharForm : Char → List Char → Prop
  | plain {character : Char} :
      character ≠ '"' → character ≠ '\\' → 0x20 ≤ character.toNat →
      CharForm character [character]
  | letter {letter character : Char} :
      (letter, character) ∈ letterEscapes →
      CharForm character ['\\', letter]
  | unit {character : Char} {digits : List Char} :
      HexForm character.toNat digits →
      CharForm character ('\\' :: 'u' :: digits)
  | pair {character : Char} {offset : Nat} {leading trailing : List Char} :
      character.toNat = 0x10000 + offset →
      HexForm (0xd800 + offset / 0x400) leading →
      HexForm (0xdc00 + offset % 0x400) trailing →
      CharForm character
        ('\\' :: 'u' :: (leading ++ '\\' :: 'u' :: trailing))

inductive CharsForm : List Char → List Char → Prop
  | nil :
      CharsForm [] []
  | cons {character : Char} {characters form forms : List Char} :
      CharForm character form → CharsForm characters forms →
      CharsForm (character :: characters) (form ++ forms)

def isPlain (character : Char) : Bool :=
  character != '"' && character != '\\' && 0x20 ≤ character.toNat

theorem CharsForm.of_plain :
    ∀ {characters : List Char},
      characters.all isPlain = true → CharsForm characters characters
  | [], _ =>
      .nil
  | character :: characters, arePlain => by
      rw [List.all_cons, Bool.and_eq_true] at arePlain
      obtain ⟨plain, others⟩ := arePlain
      simp only [isPlain, Bool.and_eq_true, bne_iff_ne, decide_eq_true_eq]
        at plain
      obtain ⟨⟨noQuote, noBackslash⟩, noControl⟩ := plain
      exact
        .cons (.plain noQuote noBackslash noControl)
          (CharsForm.of_plain others)

inductive StringForm : String → List Char → Prop
  | quoted {value : String} {forms : List Char} :
      CharsForm value.toList forms →
      StringForm value ('"' :: (forms ++ ['"']))

/-! ## Lists and objects -/

section Shapes

variable {α : Type} (Form : α → List Char → Prop)

/-- Forms with commas between them and white space around them. -/
inductive Separated : List α → List Char → Prop
  | one {item : α} {before form after : List Char} :
      Blank before → Form item form → Blank after →
      Separated [item] (before ++ (form ++ after))
  | more {item : α} {items : List α}
      {before form after forms : List Char} :
      Blank before → Form item form → Blank after →
      Separated items forms →
      Separated (item :: items) (before ++ (form ++ (after ++ ',' :: forms)))

inductive Enclosed (opening closing : Char) : List α → List Char → Prop
  | empty {blank : List Char} :
      Blank blank →
      Enclosed opening closing [] (opening :: (blank ++ [closing]))
  | items {items : List α} {forms : List Char} :
      Separated Form items forms →
      Enclosed opening closing items (opening :: (forms ++ [closing]))

inductive MemberForm : String × α → List Char → Prop
  | member {key : String} {value : α}
      {keyForm afterKey beforeValue form : List Char} :
      StringForm key keyForm → Blank afterKey → Blank beforeValue →
      Form value form →
      MemberForm (key, value)
        (keyForm ++ (afterKey ++ ':' :: (beforeValue ++ form)))

end Shapes

inductive ValueForm : Value → List Char → Prop
  | null :
      ValueForm .null ['n', 'u', 'l', 'l']
  | true :
      ValueForm (.boolean true) ['t', 'r', 'u', 'e']
  | false :
      ValueForm (.boolean false) ['f', 'a', 'l', 's', 'e']
  | number {numeral : List Char} :
      NumeralForm numeral → ValueForm (.number numeral) numeral
  | string {value : String} {form : List Char} :
      StringForm value form → ValueForm (.string value) form
  | list {elements : List Value} {form : List Char} :
      Enclosed ValueForm '[' ']' elements form →
      ValueForm (.list elements) form
  | object {members : List (String × Value)} {form : List Char} :
      Enclosed (MemberForm ValueForm) '\x7b' '\x7d' members form →
      ValueForm (.object members) form

end SemanticTokens.Json
