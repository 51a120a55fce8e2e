import SemanticTokens.Command.Invocation

/-!
# Command line arguments

The words of a command line are read from left to right into items, and the
first word that does not fit ends the reading.  The items are then checked,
completed from the environment and by defaults, and turned into an invocation.
The program and its commands each have items of their own; the log level may
be given to either.

A word in the place of a command that is not the name of one is refused as
unknown, also where it comes close to a name: no name is suggested.  A refusal
tells its reason and nothing of the words that led to it.
-/

namespace SemanticTokens

/-- Why a command line gives no invocation. -/
inductive ParseStop where
  /-- Help is asked for. -/
  | help
  /-- The version is asked for, of the program or of a command. -/
  | version (command : Option String)
  | unknownArgument
  | missingCommand
  | missingInput
  | missingValue
  | invalidValue
  | repeatedArgument
  | invalidLimit
  deriving DecidableEq, Repr

namespace ParseStop

def text : ParseStop → String
  | help => "usage: [--log-level LEVEL] encode INPUT [OPTIONS] | legend | help"
  | version _ => "version"
  | unknownArgument => "unknown argument"
  | missingCommand => "a command is required"
  | missingInput => "an input is required"
  | missingValue => "an option lacks its value"
  | invalidValue => "an option has a value that is not allowed"
  | repeatedArgument => "an argument is given more than once"
  | invalidLimit => "the inference limit is no number"

end ParseStop

/-- The number of inferences that a value stands for: decimal digits below
`2 ^ 64`, after a plus sign if one likes. -/
def readLimit? (text : List Char) : Option Nat :=
  let digits := match text with
    | '+' :: digits => digits
    | digits => digits
  if digits.isEmpty || !digits.all Char.isDigit then none
  else
    let value := Nat.ofDigitChars 10 digits 0
    if value < UInt64.size then some value else none

inductive ValueOption where
  | logLevel
  | format
  | encoding
  | inferenceLimit
  | source
  deriving DecidableEq, Repr

namespace ValueOption

def name : ValueOption → String
  | logLevel => "log-level"
  | format => "format"
  | encoding => "encoding"
  | inferenceLimit => "inference-limit"
  | source => "source"

def default? : ValueOption → Option String
  | logLevel => some "warn"
  | format => some "json"
  | encoding => some "utf-32"
  | inferenceLimit => some "4"
  | source => none

def allows : ValueOption → String → Bool
  | logLevel, value => (Threshold.ofName? value).isSome
  | format, value => (OutputForm.ofName? value).isSome
  | encoding, value => (CodeUnit.ofName? value).isSome
  | inferenceLimit, value => (readLimit? value.toList).isSome
  | source, _ => true

/-- What a value that an option does not allow leads to: a limit is no number,
any other value is none of those listed. -/
def refusal : ValueOption → ParseStop
  | inferenceLimit => .invalidLimit
  | _ => .invalidValue

def takesEnvironment : ValueOption → Bool
  | logLevel => true
  | _ => false

end ValueOption

/-- The arguments that may be given at one place. -/
structure Grammar where
  options : List ValueOption
  takesNoSort : Bool
  takesInput : Bool
  takesCommand : Bool

namespace Grammar

/-- Arguments of the program before its command. -/
def program : Grammar :=
  ⟨[.logLevel], false, false, true⟩

/-- Arguments of the encoding command when it stands alone. -/
def encodeAlone : Grammar :=
  ⟨[.format, .encoding, .inferenceLimit, .source], true, true, false⟩

def encode : Grammar :=
  ⟨.logLevel :: encodeAlone.options, true, true, false⟩

def legend : Grammar :=
  ⟨[.logLevel], false, false, false⟩

def option? (grammar : Grammar) (name : String) : Option ValueOption :=
  grammar.options.find? fun option => option.name == name

end Grammar

/-! ## Words -/

/-- A word of a command line by its form. -/
inductive Word where
  /-- Two dashes, which end the options. -/
  | separator
  /-- A name after two or more dashes, with a value after an equals sign. -/
  | long (name : String) (value : Option String)
  /-- The first letter after a single dash. -/
  | short (letter : Char)
  /-- Anything else, a single dash included. -/
  | plain
  deriving DecidableEq, Repr

namespace Word

/-- The value after the first equals sign and those that follow it at once. -/
def inlineValue (body : List Char) : Option String :=
  match body.dropWhile (· != '=') with
  | [] => none
  | _ :: value => some (String.ofList (value.dropWhile (· == '=')))

def ofString (word : String) : Word :=
  match word.toList with
  | ['-', '-'] => separator
  | '-' :: '-' :: rest =>
      let body := rest.dropWhile (· == '-')
      long (String.ofList (body.takeWhile (· != '='))) (inlineValue body)
  | '-' :: letter :: _ => short letter
  | _ => plain

end Word

/-! ## Items -/

inductive Item where
  | valued (option : ValueOption) (value : Option String)
  | noSort
  | input (path : String)
  deriving DecidableEq, Repr

namespace Item

def value? (option : ValueOption) : Item → Option String
  | .valued given value => if given = option then value else none
  | _ => none

def isOption (option : ValueOption) : Item → Bool
  | .valued given _ => given = option
  | _ => false

def input? : Item → Option String
  | .input path => some path
  | _ => none

end Item

/-- The arguments given at one place. -/
abbrev Arguments :=
  List Item

namespace Arguments

def value? (arguments : Arguments) (option : ValueOption) : Option String :=
  arguments.findSome? (Item.value? option)

/-- Every value that an option is to be checked with: those given, and that of
the environment even after them. -/
def values (arguments : Arguments) (environment : Option String) (option : ValueOption) :
    List String :=
  arguments.filterMap (Item.value? option) ++
    if option.takesEnvironment then environment.toList else []

/-- Whether an option occurs, with or without a value. -/
def has (arguments : Arguments) (option : ValueOption) : Bool :=
  arguments.any (Item.isOption option)

def count (arguments : Arguments) (option : ValueOption) : Nat :=
  arguments.countP (Item.isOption option)

def input? (arguments : Arguments) : Option String :=
  arguments.findSome? Item.input?

/-- Value of an option: the given one, else that of the environment, else the default. -/
def valueOrElse? (arguments : Arguments) (environment : Option String)
    (option : ValueOption) : Option String :=
  (arguments.value? option).or (environment.or option.default?)

end Arguments

/-! ## Scanning -/

/-- What has been read of the words at one place. -/
structure Scan where
  /-- The arguments so far, last one first. -/
  reversed : List Item := []
  /-- An option whose value may come next; it is no argument yet. -/
  pending : Option ValueOption := none
  /-- Whether the options have ended. -/
  optionsEnded : Bool := false

/-- The words at one place, read to their end. -/
structure Scanned where
  arguments : Arguments
  /-- The option that was left without a value at the end. -/
  pending : Option ValueOption
  /-- The command that ended the reading, with the words after it. -/
  command : Option (String × List String)

namespace Scan

/-- Leaves an option that waits for a value without one. -/
def settle (scan : Scan) : Scan :=
  match scan.pending with
  | none => scan
  | some option =>
      { scan with reversed := .valued option none :: scan.reversed, pending := none }

def push (scan : Scan) (item : Item) : Scan :=
  { scan with reversed := item :: scan.reversed }

def takeOption (grammar : Grammar) (scan : Scan) (name : String) (value : Option String) :
    Except ParseStop Scan :=
  match grammar.option? name with
  | some option =>
      match value with
      | none => .ok { scan with pending := some option }
      | some value => .ok (scan.push (.valued option (some value)))
  | none =>
      if name = "help" then .error .help
      else if name = "version" then .error (.version none)
      else if grammar.takesNoSort && name = "no-sort" then .ok (scan.push .noSort)
      else .error .unknownArgument

def takeLetter (letter : Char) : Except ParseStop Scan :=
  if letter = 'h' then .error .help
  else if letter = 'V' then .error (.version none)
  else .error .unknownArgument

def takeInput (grammar : Grammar) (scan : Scan) (word : String) : Except ParseStop Scan :=
  if grammar.takesInput && (Arguments.input? scan.reversed).isNone then
    .ok (scan.push (.input word))
  else .error .unknownArgument

def take (grammar : Grammar) (scan : Scan) (word : String) : Except ParseStop Scan :=
  if scan.optionsEnded then takeInput grammar scan word
  else
    match Word.ofString word with
    | .separator => .ok { scan with optionsEnded := true }
    | .long name value => takeOption grammar scan.settle name value
    | .short letter => takeLetter letter
    | .plain =>
        match scan.pending with
        | some option =>
            .ok ({ scan with pending := none }.push (.valued option (some word)))
        | none => takeInput grammar scan word

end Scan

def commandNames : List String :=
  ["encode", "legend", "help"]

/-- Reads words up to their end or to a command. -/
def scanFrom (grammar : Grammar) (scan : Scan) : List String → Except ParseStop Scanned
  | [] => .ok ⟨scan.settle.reversed.reverse, scan.pending, none⟩
  | word :: rest =>
      if grammar.takesCommand && !scan.optionsEnded && scan.pending.isNone &&
          commandNames.contains word then
        .ok ⟨scan.reversed.reverse, none, some (word, rest)⟩
      else
        match scan.take grammar word with
        | .error stop => .error stop
        | .ok next => scanFrom grammar next rest

def scan (grammar : Grammar) (words : List String) : Except ParseStop Scanned :=
  scanFrom grammar {} words

/-! ## Checking -/

namespace Arguments

/-- Whether an option occurs and has no value to take. -/
def lacksValue (arguments : Arguments) (option : ValueOption) : Bool :=
  arguments.has option && option.default?.isNone && (arguments.value? option).isNone

/-- What is wrong with an option: that it lacks a value, has one that is not
allowed, or occurs more than once. -/
def fault? (arguments : Arguments) (environment : Option String) (option : ValueOption) :
    Option ParseStop :=
  if arguments.lacksValue option then some .missingValue
  else if (arguments.values environment option).any (!option.allows ·) then some option.refusal
  else if 1 < arguments.count option then some .repeatedArgument
  else none

end Arguments

namespace Scanned

/-- Checks the arguments at one place.  An input comes first, then the option
that ends the words, then every option by itself. -/
def check (grammar : Grammar) (environment : Option String) (scanned : Scanned) :
    Except ParseStop Arguments :=
  let arguments := scanned.arguments
  if grammar.takesInput && arguments.input?.isNone then .error .missingInput
  else if scanned.pending.any arguments.lacksValue then .error .missingValue
  else
    match grammar.options.findSome? (arguments.fault? environment) with
    | some stop => .error stop
    | none =>
        if 1 < List.count .noSort arguments then .error .repeatedArgument
        else .ok arguments

end Scanned

/-! ## Invocations -/

def encodeTask (arguments : Arguments) : Except ParseStop EncodeTask := do
  let value? := arguments.valueOrElse? none
  let some input := arguments.input? | throw .missingInput
  let some format := (value? .format).bind OutputForm.ofName? | throw .invalidValue
  let some unit := (value? .encoding).bind CodeUnit.ofName? | throw .invalidValue
  let some limit := (value? .inferenceLimit).bind (readLimit? ·.toList) | throw .invalidLimit
  return {
    input := input
    format := format
    unit := unit
    sortsByPosition := !arguments.contains .noSort
    inferenceLimit := limit
    source := value? .source }

/-- The level of detail of the log, given to the command, else to the program,
else by the environment, else by default. -/
def threshold (outer inner : Arguments) (environment : Option String) :
    Except ParseStop Threshold :=
  let given := if inner.has .logLevel then inner else outer
  match (given.valueOrElse? environment .logLevel).bind Threshold.ofName? with
  | some threshold => .ok threshold
  | none => .error .invalidValue

/-- Follows a request for help through the commands that it names.  Only the
first name can be known, as no command has commands of its own. -/
def helpStop : List String → ParseStop
  | [] => .help
  | [name] => if commandNames.contains name then .help else .unknownArgument
  | _ :: _ :: _ => .unknownArgument

def ofCommand (name : String) (result : Except ParseStop α) : Except ParseStop α :=
  match result with
  | .error (.version _) => .error (.version (some name))
  | result => result

def parseEncode (words : List String) : Except ParseStop EncodeTask := do
  let scanned ← scan .encodeAlone words
  encodeTask (← scanned.check .encodeAlone none)

/-- Reads the words of a command line.  The environment may hold a log level. -/
def parse (words : List String) (environment : Option String) :
    Except ParseStop Invocation := do
  let outer ← scan .program words
  match outer.command with
  | none => throw .missingCommand
  | some ("encode", rest) =>
      let inner ← ofCommand "encode" (scan .encode rest)
      let innerArguments ← inner.check .encode environment
      let outerArguments ← outer.check .program environment
      let task ← encodeTask innerArguments
      return ⟨← threshold outerArguments innerArguments environment, .encode task⟩
  | some ("legend", rest) =>
      let inner ← ofCommand "legend" (scan .legend rest)
      let innerArguments ← inner.check .legend environment
      let outerArguments ← outer.check .program environment
      return ⟨← threshold outerArguments innerArguments environment, .legend⟩
  | some (_, rest) => throw (helpStop rest)

end SemanticTokens
