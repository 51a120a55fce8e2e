import SemanticTokens.Category
import SemanticTokens.Json.StringLiteral
import SemanticTokens.Modifier

/-!
# Legends

A legend gives names to the type numbers and to the mask bits of a stream.
Numbers without an entry keep a fallback name made of the number itself.  It is
printed as an object with one name a line, indented by two spaces for each
bracket around it.
-/

namespace SemanticTokens

/-- Names for the numbers in a stream. -/
structure Legend where
  /-- Names of the token types, by type number. -/
  types : List String
  /-- Names of the modifiers, by mask bit. -/
  modifiers : List String
  deriving DecidableEq, Repr

namespace Legend

/-- The legend advertised to clients. -/
def standard : Legend where
  types := Category.all.map Category.name
  modifiers := Modifier.all.map Modifier.name

def nameOfType (legend : Legend) (type : UInt32) : String :=
  legend.types[type.toNat]?.getD ("<type " ++ toString type.toNat ++ ">")

def nameOfBit (legend : Legend) (bit : Nat) : String :=
  legend.modifiers[bit]?.getD ("<bit " ++ toString bit ++ ">")

def setBits (mask : UInt32) : List Nat :=
  (List.range 32).filter mask.toNat.testBit

def namesOfMask (legend : Legend) (mask : UInt32) : List String :=
  (setBits mask).map legend.nameOfBit

/-! ## Printing -/

/-- The names between square brackets, indented by the given text. -/
def printNames (indent : String) (names : List String) : String :=
  if names.isEmpty then "[]"
  else
    "[\n" ++ ",\n".intercalate (names.map fun name => indent ++ "  " ++ Json.literal name) ++
      "\n" ++ indent ++ "]"

def print (legend : Legend) : String :=
  "\x7b\n  \"tokenTypes\": " ++ printNames "  " legend.types ++
    ",\n  \"tokenModifiers\": " ++ printNames "  " legend.modifiers ++ "\n\x7d"

end Legend

end SemanticTokens
