/-!
# Log records

Everything that the program reports about its work is a record with a level.
A threshold lets a record pass when the record is at least as severe.
-/

namespace SemanticTokens

/-- Severity of a log record. -/
inductive Level where
  | error
  | warn
  | info
  | debug
  | trace
  deriving DecidableEq, Repr

namespace Level

def all : List Level :=
  [.error, .warn, .info, .debug, .trace]

def verbosity : Level → Nat
  | .error => 1
  | .warn => 2
  | .info => 3
  | .debug => 4
  | .trace => 5

def name : Level → String
  | .error => "error"
  | .warn => "warn"
  | .info => "info"
  | .debug => "debug"
  | .trace => "trace"

end Level

inductive Threshold where
  | off
  | upTo (level : Level)
  deriving DecidableEq, Repr

namespace Threshold

def all : List Threshold :=
  .off :: Level.all.map .upTo

def name : Threshold → String
  | .off => "off"
  | .upTo level => level.name

def ofName? (name : String) : Option Threshold :=
  all.find? fun threshold => threshold.name == name

def passes : Threshold → Level → Bool
  | .off, _ => false
  | .upTo most, level => level.verbosity ≤ most.verbosity

end Threshold

/-- One event of a run. -/
inductive LogRecord where
  /-- The names of an input were read. -/
  | namesRead (count : Nat) (input : String)
  /-- Inference went on without a definite kind. -/
  | inferenceLimitReached (name : String) (steps : Nat)
  /-- A name without line or column was skipped. -/
  | noPosition (name : String)
  /-- A name whose kind has no category was skipped. -/
  | unmappedKind (name kind : String)
  /-- A name without text was skipped. -/
  | emptyName (line column : UInt32)
  /-- All names were turned into tokens or skipped. -/
  | collected (tokens skipped : Nat)
  /-- The output was written. -/
  | encoded (tokens : Nat)
  deriving DecidableEq, Repr

namespace LogRecord

def level : LogRecord → Level
  | namesRead .. => .info
  | inferenceLimitReached .. => .trace
  | noPosition .. => .trace
  | unmappedKind .. => .trace
  | emptyName .. => .trace
  | collected .. => .debug
  | encoded .. => .info

/-- Text of an event; the last event is completed by the time that the run took. -/
def text (elapsed : String) : LogRecord → String
  | namesRead count input => "read " ++ toString count ++ " names from " ++ input
  | inferenceLimitReached name steps =>
      "inference limit reached for `" ++ name ++ "` after " ++ toString steps ++ " steps"
  | noPosition name => "skipping `" ++ name ++ "`: no position"
  | unmappedKind name kind => "skipping `" ++ name ++ "`: unmapped kind `" ++ kind ++ "`"
  | emptyName line column =>
      "skipping empty name at L" ++ toString line.toNat ++ ":" ++ toString column.toNat
  | collected tokens skipped =>
      "collected " ++ toString tokens ++ " semantic tokens (" ++ toString skipped ++
        " names skipped)"
  | encoded tokens => "encoded " ++ toString tokens ++ " tokens in " ++ elapsed

end LogRecord

end SemanticTokens
