import SemanticTokens.CodeUnit
import SemanticTokens.Numeral.Shortest
import SemanticTokens.Text

/-!
# Faults of a JSON text

A reader that cannot go on reports what is wrong and how many bytes of the
text it had not reached.  The place follows from the whole text: a line number
and a column, both in terms of bytes, where the column counts the bytes of the
line that were reached.
-/

namespace SemanticTokens.Json

inductive Number where
  | integer (value : Int)
  | floating (negative : Bool) (magnitude : Numeral.Binary64)
  deriving DecidableEq, Repr

/-- A value found where another kind of value belongs. -/
inductive Found where
  | null
  | boolean (value : Bool)
  | number (value : Number)
  | string (value : List Char)
  | list
  | object
  deriving DecidableEq, Repr

namespace Found

def text : Found → String
  | null => "null"
  | boolean value => "boolean `" ++ toString value ++ "`"
  | number (.integer value) => "integer `" ++ toString value ++ "`"
  | number (.floating negative magnitude) =>
      "floating point `" ++ (if negative then "-" else "") ++
        (Numeral.Decimal.shortest magnitude).text ++ "`"
  | string value => "string " ++ Text.quoted value
  | list => "sequence"
  | object => "map"

end Found

/-- The kind of value that belongs at a place. -/
inductive Expected where
  | list
  | record
  | string
  | word
  | boolean
  deriving DecidableEq, Repr

namespace Expected

def text : Expected → String
  | list => "a sequence"
  | record => "struct RawName"
  | string => "a string"
  | word => "u32"
  | boolean => "a boolean"

end Expected

inductive Cause where
  | endInValue
  | endInList
  | endInObject
  | endInString
  | expectedValue
  | expectedIdentifier
  | expectedColon
  | expectedListSeparator
  | expectedObjectSeparator
  | keyMustBeString
  | trailingComma
  | trailingCharacters
  | invalidNumber
  | numberOutOfRange
  | invalidEscape
  | controlCharacter
  | loneSurrogate
  | endOfSurrogatePair
  | invalidType (found : Found) (expected : Expected)
  | integerOutOfRange (value : Int)
  | missingField (key : String)
  | duplicateField (key : String)
  | invalidLength (length : Nat)
  deriving DecidableEq, Repr

namespace Cause

def text : Cause → String
  | endInValue => "EOF while parsing a value"
  | endInList => "EOF while parsing a list"
  | endInObject => "EOF while parsing an object"
  | endInString => "EOF while parsing a string"
  | expectedValue => "expected value"
  | expectedIdentifier => "expected ident"
  | expectedColon => "expected `:`"
  | expectedListSeparator => "expected `,` or `]`"
  | expectedObjectSeparator => "expected `,` or `\x7d`"
  | keyMustBeString => "key must be a string"
  | trailingComma => "trailing comma"
  | trailingCharacters => "trailing characters"
  | invalidNumber => "invalid number"
  | numberOutOfRange => "number out of range"
  | invalidEscape => "invalid escape"
  | controlCharacter => "control character (\\u0000-\\u001F) found while parsing a string"
  | loneSurrogate => "lone leading surrogate in hex escape"
  | endOfSurrogatePair => "unexpected end of hex escape"
  | invalidType found expected =>
      "invalid type: " ++ found.text ++ ", expected " ++ expected.text
  | integerOutOfRange value => "invalid value: integer `" ++ toString value ++ "`, expected u32"
  | missingField key => "missing field `" ++ key ++ "`"
  | duplicateField key => "duplicate field `" ++ key ++ "`"
  | invalidLength length =>
      "invalid length " ++ toString length ++ ", expected struct RawName with 6 elements"

end Cause

def byteCount (text : List Char) : Nat :=
  CodeUnit.utf8.size text

/-- Where a reader cannot go on. -/
structure Fault where
  cause : Cause
  /-- Number of bytes that were not reached. -/
  unread : Nat
  deriving DecidableEq, Repr

namespace Fault

/-- A fault in front of the given rest. -/
def here (cause : Cause) (rest : List Char) : Fault :=
  ⟨cause, byteCount rest⟩

/-- A fault past the first byte of the given rest, or at the end of the text. -/
def past (cause : Cause) (rest : List Char) : Fault :=
  ⟨cause, byteCount rest - 1⟩

/-- Line and column that a number of bytes leads to, from a given line and column on. -/
def locate (line column : Nat) : List Char → Nat → Nat × Nat
  | [], _ => (line, column)
  | character :: rest, bytes =>
      if bytes = 0 then (line, column)
      else if character = '\n' then locate (line + 1) 0 rest (bytes - 1)
      else if character.utf8Size ≤ bytes then
        locate line (column + character.utf8Size) rest (bytes - character.utf8Size)
      else (line, column + bytes)

def message (fault : Fault) (text : List Char) : String :=
  let (line, column) := locate 1 0 text (byteCount text - fault.unread)
  fault.cause.text ++ " at line " ++ toString line ++ " column " ++ toString column

end Fault

end SemanticTokens.Json
