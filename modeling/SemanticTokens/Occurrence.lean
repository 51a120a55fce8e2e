import SemanticTokens.Category
import SemanticTokens.Log

/-!
# Name occurrences and their category

An analyzer reports each name with a free-form kind.  A kind that names a
category decides at once.  The kind `statement` is followed through the types
that the analyzer infers for the name, the best candidate each time, at most
as often as a limit allows.
-/

namespace SemanticTokens

/-- One name reported by an analyzer. -/
structure Occurrence where
  /-- The kind as reported. -/
  kind : String
  /-- The name as written in the source. -/
  text : String
  /-- Line, counted from one, if known. -/
  line : Option UInt32
  /-- Column, counted from zero, if known. -/
  column : Option UInt32
  isDefinition : Bool
  /-- Kinds that each inference, by its number, yields; the best candidate comes first. -/
  infer : Nat → List String

/-- What following the kind of a name gives. -/
structure Categorization where
  category : Option Category
  /-- Number of inferences made. -/
  calls : Nat
  log : List LogRecord
  deriving DecidableEq

namespace Occurrence

/-- The kind that needs inference. -/
def statementKind : String :=
  "statement"

/-- Follows a kind reached after a number of inferences, with some more left. -/
def follow (occurrence : Occurrence) (steps : Nat) : Nat → String → Categorization
  | remaining, kind =>
      if kind = statementKind then
        match remaining with
        | 0 => ⟨none, steps, [.inferenceLimitReached occurrence.text steps]⟩
        | remaining + 1 =>
            match (occurrence.infer steps).head? with
            | none => ⟨none, steps + 1, []⟩
            | some next => occurrence.follow (steps + 1) remaining next
      else
        ⟨Category.ofKind? kind, steps, []⟩

def categorize (occurrence : Occurrence) (limit : Nat) : Categorization :=
  occurrence.follow 0 limit occurrence.kind

end Occurrence

end SemanticTokens
