import SemanticTokens.Command.Run

/-!
# The program

Reads what a command line asks for, runs it, and writes the report.
-/

namespace SemanticTokens

/-- Whether the code of a system error is a given one; its sign depends on the call. -/
def isSystemCode (given code : UInt32) : Bool :=
  code = given || code = -given

def ReadFailure.ofSystem : IO.Error → ReadFailure
  | .noFileOrDirectory .. => .notFound
  | .inappropriateType _ code _ => if isSystemCode 21 code then .isDirectory else .notDirectory
  | error@(.invalidArgument _ code _) =>
      if isSystemCode 36 code then .nameTooLong else .other (toString error)
  | error => .other (toString error)

namespace Call

def readFile (path : String) : IO (Except ReadFailure ByteArray) := do
  try
    return .ok (← IO.FS.readBinFile path)
  catch error =>
    return .error (.ofSystem error)

def readStandardInput : IO (Except ReadFailure ByteArray) := do
  try
    return .ok (← (← IO.getStdin).readBinToEnd)
  catch error =>
    return .error (.ofSystem error)

/-- Reads all that a call may ask for. -/
def gather (call : Call) : IO Inputs := do
  match call.command? with
  | none => return ⟨.error .notFound, fun _ => .error .notFound⟩
  | some command =>
      let standardInput ←
        if command.readsStandardInput then readStandardInput else pure (.ok ByteArray.empty)
      let files ← command.filesRead.mapM fun path => do
        return (path, ← readFile path)
      return ⟨standardInput, fun path => (files.lookup path).getD (.error .notFound)⟩

def carryOut (call : Call) : IO UInt32 := do
  let start ← IO.monoMsNow
  let inputs ← call.gather
  let finish ← IO.monoMsNow
  match call.run inputs (toString (finish - start) ++ "ms") with
  | .ok report =>
      IO.print report.standardOutput
      IO.eprint report.standardError
      return UInt32.ofNat report.exitCode
  | .error .help =>
      IO.println ParseStop.help.text
      return 0
  | .error stop =>
      IO.eprintln ("error: " ++ stop.text)
      return 1

end Call

end SemanticTokens

/-- Runs the program on the words after its name. -/
def main (words : List String) : IO UInt32 := do
  let force ← IO.getEnv "CLICOLOR_FORCE"
  SemanticTokens.Call.carryOut {
    words := words
    logLevel := ← IO.getEnv "LOG_LEVEL"
    calledAs := SemanticTokens.programName
    colored := force.any (· != "0") }
