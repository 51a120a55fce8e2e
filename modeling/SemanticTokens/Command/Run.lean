import SemanticTokens.Command.Action
import SemanticTokens.Command.Arguments
import SemanticTokens.Command.Directory
import SemanticTokens.Legend
import SemanticTokens.Listing
import SemanticTokens.NameRecord.Reader

/-!
# Runs

A run carries out the action of an invocation on its inputs, at the level of
detail that the invocation asks for.  A report shows a run to its user: the exit
code, the text put out, and the records logged, with the failure after them.
What was put out before a failure is shown as well.
-/

namespace SemanticTokens

/-- What a run can read. -/
structure Inputs where
  standardInput : Except ReadFailure ByteArray
  file : String → Except ReadFailure ByteArray

namespace Inputs

def decode (content : ByteArray) : Except ReadFailure String :=
  match String.fromUTF8? content with
  | some text => .ok text
  | none => .error .notUtf8

def fileText (inputs : Inputs) (path : String) : Except Failure String :=
  match inputs.file path >>= decode with
  | .ok text => .ok text
  | .error reason => .error (.ofFile path reason)

/-- The text of an input, which may be the standard input. -/
def inputText (inputs : Inputs) (path : String) : Except Failure String :=
  if FilePath.isStandardInput path then
    match inputs.standardInput >>= decode with
    | .ok text => .ok text
    | .error reason => .error (.ofStandardInput reason)
  else
    inputs.fileText path

def sourceText (inputs : Inputs) : Option String → Except Failure (Option String)
  | none => .ok none
  | some path => (inputs.fileText path).map some

end Inputs

namespace EncodeTask

/-- Whether a source is given that the output does not show. -/
def wastesSource (task : EncodeTask) : Bool :=
  task.source.isSome && task.format != .pretty

def checkSource (task : EncodeTask) : Except Failure Unit :=
  if task.wastesSource then .error .sourceWithoutListing else .ok ()

def readNames (task : EncodeTask) (inputs : Inputs) : Except Failure (List NameRecord) :=
  match inputs.inputText task.input with
  | .error failure => .error failure
  | .ok text =>
      match NameRecord.readAll text.toList with
      | .error fault => .error (.ofFault task.input text.toList fault)
      | .ok names => .ok names

def collection (task : EncodeTask) (names : List NameRecord) : Collection :=
  Collection.ofOccurrences (names.map NameRecord.occurrence) task.policy

/-- Puts the highlights of an input out.  A listing needs the text of its source first. -/
def write (task : EncodeTask) (inputs : Inputs) (highlights : List Highlight) : Action Unit :=
  match task.format with
  | .json => Action.put (Delta.payload (Delta.groups highlights))
  | .pretty => do
      let source ← Action.ofExcept (inputs.sourceText task.source)
      Action.put (Listing.text (Delta.encode highlights) source task.unit Legend.standard)

/-- Collects the names of an input and puts their highlights out, with a line end. -/
def encodeNames (task : EncodeTask) (inputs : Inputs) (names : List NameRecord) :
    Action Unit := do
  Action.note (.namesRead names.length task.input)
  Action.noteAll (task.collection names).log
  task.write inputs (task.collection names).highlights
  Action.put "\n"
  Action.note (.encoded (task.collection names).highlights.length)

def action (task : EncodeTask) (inputs : Inputs) : Action Unit := do
  Action.ofExcept task.checkSource
  let names ← Action.ofExcept (task.readNames inputs)
  task.encodeNames inputs names

def run (task : EncodeTask) (inputs : Inputs) (threshold : Threshold) : Outcome :=
  (task.action inputs).outcome threshold

def readsStandardInput (task : EncodeTask) : Bool :=
  !task.wastesSource && FilePath.isStandardInput task.input

/-- The files that a run may read. -/
def filesRead (task : EncodeTask) : List String :=
  if task.wastesSource then []
  else
    (if FilePath.isStandardInput task.input then [] else [task.input]) ++
      task.source.toList

end EncodeTask

namespace Command

def action (inputs : Inputs) : Command → Action Unit
  | encode task => task.action inputs
  | legend => do
      Action.put Legend.standard.print
      Action.put "\n"

def readsStandardInput : Command → Bool
  | encode task => task.readsStandardInput
  | legend => false

def filesRead : Command → List String
  | encode task => task.filesRead
  | legend => []

end Command

/-! ## Reports -/

/-- A way of setting text off on a terminal, by its control code. -/
inductive Emphasis where
  | red
  | green
  | yellow
  | blue
  | magenta
  | bold
  | boldRed
  deriving DecidableEq, Repr

namespace Emphasis

def code : Emphasis → String
  | red => "31"
  | green => "32"
  | yellow => "33"
  | blue => "34"
  | magenta => "35"
  | bold => "1"
  | boldRed => "1;31"

/-- Sets a text off, if colours are wanted. -/
def apply (emphasis : Emphasis) (colored : Bool) (text : String) : String :=
  if colored then "\x1b[" ++ emphasis.code ++ "m" ++ text ++ "\x1b[0m" else text

def ofLevel : Level → Emphasis
  | .error => red
  | .warn => yellow
  | .info => blue
  | .debug => magenta
  | .trace => green

end Emphasis

structure Display where
  colored : Bool
  /-- The time that the run took. -/
  elapsed : String

namespace Display

def recordLine (display : Display) (record : LogRecord) : String :=
  (Emphasis.ofLevel record.level).apply display.colored (record.level.name ++ ":") ++ " " ++
    record.text display.elapsed ++ "\n"

def logText (display : Display) (log : List LogRecord) : String :=
  "".intercalate (log.map display.recordLine)

def failureText (display : Display) (failure : Failure) : String :=
  Emphasis.boldRed.apply display.colored (failure.kind.name ++ ":") ++ " " ++
    Emphasis.bold.apply display.colored failure.message ++ "\n" ++
    match failure.path with
    | none => ""
    | some path => " " ++ Emphasis.bold.apply display.colored "-->" ++ " " ++ path ++ "\n"

/-- The lines of some log records, and those of the failure after them, if there is one. -/
def lines (display : Display) (log : List LogRecord) (failure : Option Failure) : String :=
  display.logText log ++
    match failure with
    | none => ""
    | some failure => display.failureText failure

end Display

/-- What the user of a run sees. -/
structure Report where
  exitCode : Nat
  standardOutput : String
  standardError : String
  deriving DecidableEq, Repr

namespace Outcome

def report (outcome : Outcome) (display : Display) : Report where
  exitCode := if outcome.failure? = none then 0 else 1
  standardOutput := outcome.output
  standardError := display.lines outcome.log outcome.failure?

end Outcome

def programName : String :=
  "qmd-semantic"

def programVersion : String :=
  "0.1.0"

/-- The line that tells the version of the program, or of a command under the
name by which the program was called. -/
def versionLine (calledAs : String) : Option String → String
  | none => programName ++ " " ++ programVersion ++ "\n"
  | some command => calledAs ++ "-" ++ command ++ " " ++ programVersion ++ "\n"

structure Call where
  words : List String
  /-- The log level of the environment. -/
  logLevel : Option String
  /-- The name by which the program was called. -/
  calledAs : String
  colored : Bool

namespace Call

def command? (call : Call) : Option Command :=
  match parse call.words call.logLevel with
  | .error _ => none
  | .ok invocation => some invocation.command

/-- What the user of a call sees, unless the words are at fault or ask for help. -/
def run (call : Call) (inputs : Inputs) (elapsed : String) : Except ParseStop Report :=
  match parse call.words call.logLevel with
  | .error (.version command) => .ok ⟨0, versionLine call.calledAs command, ""⟩
  | .error stop => .error stop
  | .ok invocation =>
      .ok (((invocation.command.action inputs).outcome invocation.threshold).report
        ⟨call.colored, elapsed⟩)

end Call

end SemanticTokens
