import SemanticTokens.Category
import SemanticTokens.Modifier

/-!
# Highlights and their delta streams

A highlight is one highlighted token with its absolute position.  Lines and
columns count from zero.  Highlights are ordered by where they start, and
sorting keeps the given order of those that start at the same place.

A stream is a flat list of numbers, five for each token: lines since the
previous token, columns, length, type number and modifier mask.  The column
counts from the previous token when both share a line and from the start of
the line otherwise.  Differences and sums wrap at `2 ^ 32`, so that a stream
of tokens in any order can be read back.
-/

namespace SemanticTokens

/-- One highlighted token with its absolute position. -/
structure Highlight where
  line : UInt32
  start : UInt32
  length : UInt32
  category : Category
  modifiers : ModifierSet
  deriving DecidableEq

namespace Highlight

def position (highlight : Highlight) : UInt32 × UInt32 :=
  (highlight.line, highlight.start)

def addModifiers (highlight : Highlight) (modifiers : List Modifier) : Highlight :=
  { highlight with modifiers := highlight.modifiers.union (.ofList modifiers) }

/-- Whether one token starts no later than another. -/
def startsBy (left right : Highlight) : Bool :=
  left.line < right.line || left.line == right.line && left.start ≤ right.start

/-- The highlights by start, in the given order where the starts agree. -/
def sort (highlights : List Highlight) : List Highlight :=
  highlights.mergeSort startsBy

end Highlight

/-! ## Streams -/

/-- The five numbers of one token in a stream. -/
structure DeltaGroup where
  lineDelta : UInt32
  startDelta : UInt32
  length : UInt32
  type : UInt32
  mask : UInt32
  deriving DecidableEq, Repr

/-- A token read from a stream, with its absolute position. -/
structure Token where
  line : UInt32
  start : UInt32
  length : UInt32
  type : UInt32
  mask : UInt32
  deriving DecidableEq, Repr

namespace DeltaGroup

def numbers (group : DeltaGroup) : List UInt32 :=
  [group.lineDelta, group.startDelta, group.length, group.type, group.mask]

/-- The group of a token that follows one at a given line and column. -/
def between (line start : UInt32) (highlight : Highlight) : DeltaGroup where
  lineDelta := highlight.line - line
  startDelta :=
    if highlight.line - line = 0 then highlight.start - start else highlight.start
  length := highlight.length
  type := highlight.category.index
  mask := highlight.modifiers.bits

/-- The token of a group that follows one at a given line and column. -/
def resolve (line start : UInt32) (group : DeltaGroup) : Token where
  line := line + group.lineDelta
  start := if group.lineDelta = 0 then start + group.startDelta else group.startDelta
  length := group.length
  type := group.type
  mask := group.mask

def encodeFrom (line start : UInt32) : List Highlight → List DeltaGroup
  | [] => []
  | highlight :: rest =>
      between line start highlight :: encodeFrom highlight.line highlight.start rest

end DeltaGroup

namespace Delta

def groups (highlights : List Highlight) : List DeltaGroup :=
  DeltaGroup.encodeFrom 0 0 highlights

def encode (highlights : List Highlight) : List UInt32 :=
  (groups highlights).flatMap DeltaGroup.numbers

/-- Reads tokens that follow one at a given line and column.  Fewer than five
remaining numbers are ignored. -/
def decodeFrom (line start : UInt32) : List UInt32 → List Token
  | lineDelta :: startDelta :: length :: type :: mask :: rest =>
      let token := DeltaGroup.resolve line start ⟨lineDelta, startDelta, length, type, mask⟩
      token :: decodeFrom token.line token.start rest
  | _ => []

def decode (data : List UInt32) : List Token :=
  decodeFrom 0 0 data

/-- The response that carries a stream to a client. -/
def payload (groups : List DeltaGroup) : String :=
  "\x7b\"data\":[" ++
    ",".intercalate ((groups.flatMap DeltaGroup.numbers).map fun number =>
      toString number.toNat) ++
    "]\x7d"

end Delta

end SemanticTokens
