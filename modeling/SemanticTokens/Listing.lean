import SemanticTokens.CodeUnit
import SemanticTokens.Delta
import SemanticTokens.Legend
import SemanticTokens.Text

/-!
# Listings

A listing shows a stream with one line for each token: its number, position
and length, the names of its type and modifiers, and the text that it covers
in the source document, if there is any.
-/

namespace SemanticTokens

namespace Listing

/-- A token number, with zeros before it up to three digits. -/
def ordinal (number : Nat) : String :=
  let digits := toString number
  String.ofList (List.replicate (3 - digits.length) '0') ++ digits

/-- The text that a token covers; an empty text counts as none. -/
def textUnder? (lines : List (List Char)) (unit : CodeUnit) (token : Token) :
    Option (List Char) := do
  let line ← lines[token.line.toNat]?
  let covered ← unit.cut? line token.start token.length
  if covered.isEmpty then none else some covered

/-- The names of the modifiers in brackets, or nothing if there are none. -/
def modifierPart (legend : Legend) (mask : UInt32) : String :=
  let names := legend.namesOfMask mask
  if names.isEmpty then "" else " [" ++ ",".intercalate names ++ "]"

def coveredPart (covered : Option (List Char)) : String :=
  match covered with
  | none => ""
  | some text => " " ++ Text.quoted text

def line (legend : Legend) (number : Nat) (token : Token) (covered : Option (List Char)) :
    String :=
  "#" ++ ordinal number ++ " L" ++ toString token.line.toNat ++ ":" ++
    toString token.start.toNat ++ " len=" ++ toString token.length.toNat ++ " " ++
    legend.nameOfType token.type ++ modifierPart legend token.mask ++ coveredPart covered

def lines (data : List UInt32) (source : Option String) (unit : CodeUnit)
    (legend : Legend) : List String :=
  let sourceLines := (source.map fun text => Text.lines text.toList).getD []
  (Delta.decode data).mapIdx fun index token =>
    line legend (index + 1) token (textUnder? sourceLines unit token)

def text (data : List UInt32) (source : Option String) (unit : CodeUnit)
    (legend : Legend) : String :=
  "\n".intercalate (lines data source unit legend)

end Listing

end SemanticTokens
