import SemanticTokens.CodeUnit
import SemanticTokens.Delta
import SemanticTokens.Occurrence

/-!
# Collecting highlights

Each name with a position, a category and a text becomes one highlight; the
others are skipped, each with a record of the first reason found.  A
collection holds the highlights of a list of names, by position or in the
order of the names.
-/

namespace SemanticTokens

/-- How names are collected. -/
structure CollectionPolicy where
  /-- Code unit of the lengths. -/
  unit : CodeUnit := .utf32
  /-- Whether highlights are put in order of position. -/
  sortsByPosition : Bool := true
  /-- Most inferences made for one name. -/
  inferenceLimit : Nat := 4
  deriving DecidableEq, Repr

/-- What becomes of one name. -/
structure Examination where
  highlight : Option Highlight
  /-- Number of inferences made. -/
  calls : Nat
  log : List LogRecord
  deriving DecidableEq

/-- What becomes of a list of names. -/
structure Collection where
  highlights : List Highlight
  log : List LogRecord
  deriving DecidableEq

namespace Occurrence

/-- The kind whose definitions are no declarations. -/
def moduleKind : String :=
  "module"

/-- Line and column where a name starts, both counted from zero. -/
def position? (occurrence : Occurrence) : Option (UInt32 × UInt32) :=
  match occurrence.line, occurrence.column with
  | some line, some column => if 0 < line then some (line - 1, column) else none
  | _, _ => none

/-- The modifiers of a name: a definition declares, unless its reported kind is a module. -/
def modifiers (occurrence : Occurrence) : ModifierSet :=
  if occurrence.isDefinition && occurrence.kind != moduleKind then
    ModifierSet.empty.insert .declaration
  else
    ModifierSet.empty

/-- Turns a name into a highlight, or reports why it is skipped. -/
def examine (occurrence : Occurrence) (policy : CollectionPolicy) : Examination :=
  match occurrence.position? with
  | none => ⟨none, 0, [.noPosition occurrence.text]⟩
  | some (line, column) =>
      let categorization := occurrence.categorize policy.inferenceLimit
      match categorization.category with
      | none =>
          ⟨none, categorization.calls,
            categorization.log ++ [.unmappedKind occurrence.text occurrence.kind]⟩
      | some category =>
          let length := policy.unit.measure occurrence.text.toList
          if length = 0 then
            ⟨none, categorization.calls, categorization.log ++ [.emptyName line column]⟩
          else
            ⟨some ⟨line, column, length, category, occurrence.modifiers⟩,
              categorization.calls, categorization.log⟩

end Occurrence

namespace Collection

def ofOccurrences (occurrences : List Occurrence) (policy : CollectionPolicy) : Collection :=
  let examinations := occurrences.map (Occurrence.examine · policy)
  let found := examinations.filterMap Examination.highlight
  { highlights := if policy.sortsByPosition then Highlight.sort found else found
    log := examinations.flatMap Examination.log ++
      [.collected found.length (occurrences.length - found.length)] }

def payload (collection : Collection) : String :=
  Delta.payload (Delta.groups collection.highlights)

end Collection

end SemanticTokens
