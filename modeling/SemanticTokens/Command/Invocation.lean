import SemanticTokens.Collection
import SemanticTokens.Text

/-!
# Invocations

An invocation is a command, ready to run, and the level of detail of its log.
-/

namespace SemanticTokens

inductive OutputForm where
  | json
  | pretty
  deriving DecidableEq, Repr

namespace OutputForm

def all : List OutputForm :=
  [.json, .pretty]

def name : OutputForm → String
  | json => "json"
  | pretty => "pretty"

def ofName? (name : String) : Option OutputForm :=
  all.find? fun format => format.name == name

def unsupported (name : String) : String :=
  "unsupported output format `" ++ name ++ "`"

end OutputForm

/-- What the encoding command is asked to do. -/
structure EncodeTask where
  /-- Path of the names; a dash is the standard input. -/
  input : String
  format : OutputForm := .json
  unit : CodeUnit := .utf32
  sortsByPosition : Bool := true
  inferenceLimit : Nat := 4
  /-- Path of the document that the names are from. -/
  source : Option String := none
  deriving DecidableEq, Repr

namespace EncodeTask

def policy (task : EncodeTask) : CollectionPolicy where
  unit := task.unit
  sortsByPosition := task.sortsByPosition
  inferenceLimit := task.inferenceLimit

def text (task : EncodeTask) : String :=
  let format := match task.format with
    | .json => "Json"
    | .pretty => "Pretty"
  let encoding := match task.unit with
    | .utf8 => "Utf8"
    | .utf16 => "Utf16"
    | .utf32 => "Utf32"
  let source := match task.source with
    | none => "None"
    | some path => "Some(" ++ Text.quoted path.toList ++ ")"
  "EncodeOptions \x7b input_path: " ++ Text.quoted task.input.toList ++
    ", format: " ++ format ++ ", encoding: " ++ encoding ++
    ", no_sort: " ++ toString (!task.sortsByPosition) ++
    ", inference_limit: " ++ toString task.inferenceLimit ++
    ", source: " ++ source ++ " \x7d"

end EncodeTask

inductive Command where
  /-- Encode the names of an input. -/
  | encode (task : EncodeTask)
  /-- Print the legend. -/
  | legend
  deriving DecidableEq, Repr

/-- A command with the level of detail of its log. -/
structure Invocation where
  threshold : Threshold
  command : Command
  deriving DecidableEq, Repr

namespace Invocation

def text (invocation : Invocation) : String :=
  let threshold := match invocation.threshold with
    | .off => "Off"
    | .upTo .error => "Error"
    | .upTo .warn => "Warn"
    | .upTo .info => "Info"
    | .upTo .debug => "Debug"
    | .upTo .trace => "Trace"
  let command := match invocation.command with
    | .encode task => "Encode(" ++ task.text ++ ")"
    | .legend => "Legend"
  "Cli \x7b log_level: " ++ threshold ++ ", cmd: " ++ command ++ " \x7d"

end Invocation

end SemanticTokens
