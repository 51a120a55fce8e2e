import SemanticTokens.Json.Fault

/-!
# Failures

A run fails with a kind, a message and, where a file is to blame, its path.
-/

namespace SemanticTokens

/-- What sort of failure ended a run. -/
inductive FailureKind where
  | input
  | parse
  | config
  deriving DecidableEq, Repr

namespace FailureKind

def name : FailureKind → String
  | input => "i/o error"
  | parse => "parse error"
  | config => "config error"

end FailureKind

/-- Why a run failed. -/
structure Failure where
  kind : FailureKind
  message : String
  path : Option String := none
  deriving DecidableEq, Repr

/-- Why an input could not be read. -/
inductive ReadFailure where
  | notFound
  | notDirectory
  | isDirectory
  /-- The path, or a name on it, is longer than a file system takes. -/
  | nameTooLong
  /-- The path holds a NUL, which ends a path before the system reads it. -/
  | nulInPath
  | notUtf8
  | other (message : String)
  deriving DecidableEq, Repr

namespace ReadFailure

def text : ReadFailure → String
  | notFound => "No such file or directory (os error 2)"
  | notDirectory => "Not a directory (os error 20)"
  | isDirectory => "Is a directory (os error 21)"
  | nameTooLong => "File name too long (os error 36)"
  | nulInPath => "file name contained an unexpected NUL byte"
  | notUtf8 => "stream did not contain valid UTF-8"
  | other message => message

end ReadFailure

namespace Failure

def ofFile (path : String) (reason : ReadFailure) : Failure :=
  ⟨.input, reason.text, some path⟩

def ofStandardInput (reason : ReadFailure) : Failure :=
  ⟨.input, reason.text, none⟩

def ofFault (path : String) (text : List Char) (fault : Json.Fault) : Failure :=
  ⟨.parse, fault.message text, some path⟩

/-- A source is given for an output that does not show it. -/
def sourceWithoutListing : Failure :=
  ⟨.config, "--source is only used with --format pretty", none⟩

def text (failure : Failure) : String :=
  failure.kind.name ++ ": " ++ failure.message ++
    match failure.path with
    | none => ""
    | some path => " (" ++ path ++ ")"

end Failure

end SemanticTokens
