import SemanticTokens.Json.StringLiteral
import SemanticTokens.Occurrence

/-!
# Name records and their printed form

A name record is a name as it stands in the serialized output of an analyzer.
Its inferred kinds are listed once and for all, so that every inference yields
the same list.  A record is printed as an object with all six fields in a fixed
order and no white space.
-/

namespace SemanticTokens

/-- A name in the serialized output of an analyzer. -/
structure NameRecord where
  name : String
  /-- Line, counted from one, if known. -/
  line : Option UInt32 := none
  /-- Column, counted from zero, if known. -/
  column : Option UInt32 := none
  kind : String
  isDefinition : Bool := false
  /-- Inferred kinds, best candidate first. -/
  inferred : List String := []
  deriving DecidableEq, Repr

namespace NameRecord

def reference (name : String) (line column : UInt32) (kind : String) : NameRecord where
  name := name
  line := some line
  column := some column
  kind := kind

def asDefinition (record : NameRecord) : NameRecord :=
  { record with isDefinition := true }

def addInferred (record : NameRecord) (kind : String) : NameRecord :=
  { record with inferred := record.inferred ++ [kind] }

def occurrence (record : NameRecord) : Occurrence where
  kind := record.kind
  text := record.name
  line := record.line
  column := record.column
  isDefinition := record.isDefinition
  infer := fun _ => record.inferred

/-! ## Printing -/

def printWord : Option UInt32 → String
  | none => "null"
  | some word => toString word.toNat

def printList (items : List String) : String :=
  "[" ++ ",".intercalate items ++ "]"

def print (record : NameRecord) : String :=
  "\x7b\"name\":" ++ Json.literal record.name ++
    ",\"line\":" ++ printWord record.line ++
    ",\"column\":" ++ printWord record.column ++
    ",\"type\":" ++ Json.literal record.kind ++
    ",\"is_definition\":" ++ (if record.isDefinition then "true" else "false") ++
    ",\"inferred\":" ++ printList (record.inferred.map Json.literal) ++ "\x7d"

def printAll (records : List NameRecord) : String :=
  printList (records.map print)

end NameRecord

end SemanticTokens
