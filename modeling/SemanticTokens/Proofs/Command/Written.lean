import SemanticTokens.Command.Arguments

/-!
# How arguments are written

An option and its value stand in two words or in one, a flag and an input in a word
of their own.  Two dashes may end the options; what follows them are inputs,
whatever they look like.

Words written in this way are read back as the arguments that they stand for, one
argument after the other, with no option left that waits for a value.  Only a second
input is refused, wherever it stands.
-/

namespace SemanticTokens

/-- Whether a word that begins with a dash is a single dash.  All other words that
begin with one are options. -/
def StandsAlone (word : String) : Prop :=
  word.toList.head? = some '-' → word = "-"

instance (word : String) : Decidable (StandsAlone word) :=
  inferInstanceAs (Decidable (_ → _))

namespace Item

/-- The words that an argument is written as.  Behind the name of an option all
equals signs up to its value are skipped. -/
inductive WrittenAs : Item → List String → Prop
  | apart {option : ValueOption} {value : String}
      (alone : StandsAlone value) :
      WrittenAs (.valued option (some value)) ["--" ++ option.name, value]
  | joined {option : ValueOption} {value written : String}
      (behindSigns :
        written.toList.dropWhile (· == '=') = value.toList) :
      WrittenAs (.valued option (some value))
        ["--" ++ option.name ++ "=" ++ written]
  | noSort :
      WrittenAs .noSort ["--no-sort"]
  | input {path : String}
      (alone : StandsAlone path) :
      WrittenAs (.input path) [path]

end Item

namespace Arguments

/-- Words that arguments are written as, one after the other. -/
inductive WrittenAs : Arguments → List String → Prop
  | nil :
      WrittenAs [] []
  | cons {item : Item} {words : List String}
      {rest : Arguments} {others : List String}
      (first : item.WrittenAs words) (remaining : WrittenAs rest others) :
      WrittenAs (item :: rest) (words ++ others)

/-- Words that arguments are written as up to the end of a command line, where two
dashes may stand before inputs of any form. -/
inductive WrittenToEnd : Arguments → List String → Prop
  | unseparated {arguments : Arguments} {words : List String}
      (written : WrittenAs arguments words) :
      WrittenToEnd arguments words
  | separated {arguments : Arguments} {words : List String}
      (written : WrittenAs arguments words) (paths : List String) :
      WrittenToEnd (arguments ++ paths.map .input) (words ++ "--" :: paths)

def inputs (arguments : Arguments) : List String :=
  arguments.filterMap Item.input?

theorem input?_eq_head?_inputs
    (arguments : Arguments) :
    arguments.input? = arguments.inputs.head? := by
  rw [input?, inputs, List.head?_filterMap]

@[simp]
theorem inputs_valued_cons
    (option : ValueOption) (value : Option String) (rest : Arguments) :
    inputs (.valued option value :: rest) = rest.inputs := by
  rfl

@[simp]
theorem inputs_noSort_cons
    (rest : Arguments) :
    inputs (.noSort :: rest) = rest.inputs := by
  rfl

@[simp]
theorem inputs_input_cons
    (path : String) (rest : Arguments) :
    inputs (.input path :: rest) = path :: rest.inputs := by
  rfl

theorem inputs_append
    (left right : Arguments) :
    inputs (left ++ right) = left.inputs ++ right.inputs :=
  List.filterMap_append

theorem length_inputs_reverse
    (arguments : Arguments) :
    (inputs arguments.reverse).length = arguments.inputs.length := by
  rw [inputs, List.filterMap_reverse, List.length_reverse, inputs]

theorem WrittenAs.singleton
    {item : Item} {words : List String} (written : item.WrittenAs words) :
    WrittenAs [item] words := by
  have alone : WrittenAs [item] (words ++ []) := .cons written .nil
  rwa [List.append_nil] at alone

theorem WrittenAs.append
    {left right : Arguments} {words others : List String}
    (writtenLeft : left.WrittenAs words) (writtenRight : right.WrittenAs others) :
    WrittenAs (left ++ right) (words ++ others) := by
  induction writtenLeft with
  | nil =>
      exact writtenRight
  | cons first _ inductionHypothesis =>
      rw [List.cons_append, List.append_assoc]
      exact .cons first inductionHypothesis

theorem WrittenAs.append_toEnd
    {left right : Arguments} {words others : List String}
    (writtenLeft : left.WrittenAs words)
    (writtenRight : right.WrittenToEnd others) :
    WrittenToEnd (left ++ right) (words ++ others) := by
  cases writtenRight with
  | unseparated writtenRight =>
      exact .unseparated (writtenLeft.append writtenRight)
  | separated writtenRight paths =>
      rw [← List.append_assoc, ← List.append_assoc]
      exact .separated (writtenLeft.append writtenRight) paths

end Arguments

/-! ## The form of a word -/

namespace ValueOption

theorem name_injective
    {left right : ValueOption} (sameName : left.name = right.name) :
    left = right := by
  cases left <;> cases right <;>
    first | rfl | exact absurd sameName (by decide)

theorem name_eq_cons
    (option : ValueOption) :
    ∃ first rest,
      option.name.toList = first :: rest ∧
        first ≠ '-' ∧ (first :: rest).all (· != '=') = true := by
  cases option <;> exact ⟨_, _, rfl, by decide, by decide⟩

theorem option?_name
    {grammar : Grammar} {option : ValueOption}
    (known : option ∈ grammar.options) :
    grammar.option? option.name = some option := by
  rw [Grammar.option?]
  cases found : grammar.options.find? (·.name == option.name) with
  | none =>
      have unnamed := List.find?_eq_none.mp found option known
      rw [beq_self_eq_true] at unnamed
      exact (unnamed rfl).elim
  | some other =>
      have sameName := List.find?_some found
      rw [beq_iff_eq] at sameName
      rw [name_injective sameName]

theorem option?_eq_none
    (grammar : Grammar) {name : String}
    (unnamed : ∀ option : ValueOption, option.name ≠ name) :
    grammar.option? name = none := by
  rw [Grammar.option?, List.find?_eq_none]
  intro option _
  rw [beq_iff_eq]
  exact unnamed option

end ValueOption

namespace Word

theorem ofString_of_standsAlone
    {word : String} (alone : StandsAlone word) :
    ofString word = .plain := by
  have noOption {letter : Char} {rest : List Char} :
      word.toList ≠ '-' :: letter :: rest := by
    intro letters
    have isDash : word = "-" := by
      apply alone
      rw [letters, List.head?_cons]
    rw [isDash] at letters
    simp at letters
  unfold ofString
  split
  · exact absurd ‹_› noOption
  · exact absurd ‹_› noOption
  · exact absurd ‹_› noOption
  · rfl

theorem ofString_of_dashes
    {word : String} {first : Char} {rest : List Char}
    (letters : word.toList = '-' :: '-' :: first :: rest)
    (noDash : first ≠ '-') :
    ofString word =
      .long (String.ofList ((first :: rest).takeWhile (· != '=')))
        (inlineValue (first :: rest)) := by
  have whole : (first :: rest).dropWhile (· == '-') = first :: rest := by
    rw [List.dropWhile_cons_of_neg (by rwa [beq_iff_eq])]
  rw [ofString, letters]
  simp only [whole]

theorem ofString_name
    (option : ValueOption) :
    ofString ("--" ++ option.name) = .long option.name none := by
  cases option <;> decide

theorem ofString_name_append
    {option : ValueOption} {value written : String}
    (behindSigns : written.toList.dropWhile (· == '=') = value.toList) :
    ofString ("--" ++ option.name ++ "=" ++ written) =
      .long option.name (some value) := by
  obtain ⟨first, rest, letters, noDash, noSign⟩ := option.name_eq_cons
  have differs : ∀ letter ∈ first :: rest, (letter != '=') = true :=
    List.all_eq_true.mp noSign
  have spelled :
      ("--" ++ option.name ++ "=" ++ written).toList =
        '-' :: '-' :: first :: (rest ++ '=' :: written.toList) := by
    simp [String.toList_append, letters]
  have name :
      (first :: (rest ++ '=' :: written.toList)).takeWhile (· != '=') =
        first :: rest := by
    rw [← List.cons_append, List.takeWhile_append_of_pos differs,
      List.takeWhile_cons_of_neg (by decide), List.append_nil]
  have sign :
      (first :: (rest ++ '=' :: written.toList)).dropWhile (· != '=') =
        '=' :: written.toList := by
    rw [← List.cons_append, List.dropWhile_append_of_pos differs,
      List.dropWhile_cons_of_neg (by decide)]
  rw [ofString_of_dashes spelled noDash, name, inlineValue, sign]
  simp only [behindSigns, String.ofList_toList]
  rw [← letters, String.ofList_toList]

end Word

/-! ## Reading what is written -/

/-- Whether an argument may be given at a place.  Where a command is looked for, no
input is. -/
def Grammar.Takes (grammar : Grammar) : Item → Prop
  | .valued option _ => option ∈ grammar.options
  | .noSort => grammar.takesNoSort = true
  | .input _ => grammar.takesInput = true ∧ grammar.takesCommand = false

section Scanning

variable {grammar : Grammar}

/-- Reading goes on behind a word that is no command. -/
theorem scanFrom_cons_of_take
    {scan next : Scan} {word : String}
    (noCommand :
      (grammar.takesCommand && !scan.optionsEnded && scan.pending.isNone &&
        commandNames.contains word) = false)
    (taken : scan.take grammar word = .ok next) (rest : List String) :
    scanFrom grammar scan (word :: rest) = scanFrom grammar next rest := by
  rw [scanFrom, noCommand, if_neg Bool.false_ne_true, taken]

theorem takeInput_eq
    {scan : Scan}
    (takesInput : grammar.takesInput = true) (path : String) :
    scan.takeInput grammar path =
      if Arguments.inputs scan.reversed = [] then
        .ok (scan.push (.input path))
      else .error .unknownArgument := by
  rw [Scan.takeInput, takesInput, Bool.true_and,
    Arguments.input?_eq_head?_inputs]
  simp only [Option.isNone_iff_eq_none, List.head?_eq_none_iff]

theorem not_command_of_dash
    {word : String} (dash : word.toList.head? = some '-') :
    commandNames.contains word = false := by
  have noneBegins : ∀ name ∈ commandNames, name.toList.head? ≠ some '-' := by
    decide
  rw [← Bool.not_eq_true, List.contains_iff_mem]
  intro member
  exact noneBegins word member dash

theorem scanFrom_apart
    {option : ValueOption} (known : option ∈ grammar.options)
    {value : String} (alone : StandsAlone value)
    (reversed : List Item) (rest : List String) :
    scanFrom grammar ⟨reversed, none, false⟩
        (("--" ++ option.name) :: value :: rest) =
      scanFrom grammar
        ⟨.valued option (some value) :: reversed, none, false⟩ rest := by
  have named :
      Scan.take grammar ⟨reversed, none, false⟩ ("--" ++ option.name) =
        .ok ⟨reversed, some option, false⟩ := by
    simp only [Scan.take, Word.ofString_name, Scan.settle, Scan.takeOption,
      ValueOption.option?_name known, Bool.false_eq_true, if_false]
  have filled :
      Scan.take grammar ⟨reversed, some option, false⟩ value =
        .ok ⟨.valued option (some value) :: reversed, none, false⟩ := by
    simp only [Scan.take, Word.ofString_of_standsAlone alone, Scan.push,
      Bool.false_eq_true, if_false]
  have noCommand : commandNames.contains ("--" ++ option.name) = false :=
    not_command_of_dash (by simp [String.toList_append])
  rw [scanFrom_cons_of_take (by rw [noCommand, Bool.and_false]) named,
    scanFrom_cons_of_take _ filled]
  -- A word that an option waits for is no command either.
  simp only [Option.isNone_some, Bool.and_false, Bool.false_and]

theorem scanFrom_joined
    {option : ValueOption} (known : option ∈ grammar.options)
    {value written : String}
    (behindSigns : written.toList.dropWhile (· == '=') = value.toList)
    (reversed : List Item) (rest : List String) :
    scanFrom grammar ⟨reversed, none, false⟩
        (("--" ++ option.name ++ "=" ++ written) :: rest) =
      scanFrom grammar
        ⟨.valued option (some value) :: reversed, none, false⟩ rest := by
  have taken :
      Scan.take grammar ⟨reversed, none, false⟩
          ("--" ++ option.name ++ "=" ++ written) =
        .ok ⟨.valued option (some value) :: reversed, none, false⟩ := by
    simp only [Scan.take, Word.ofString_name_append behindSigns, Scan.settle,
      Scan.takeOption, ValueOption.option?_name known, Scan.push,
      Bool.false_eq_true, if_false]
  have noCommand :
      commandNames.contains ("--" ++ option.name ++ "=" ++ written) =
        false :=
    not_command_of_dash (by simp [String.toList_append])
  exact
    scanFrom_cons_of_take (by rw [noCommand, Bool.and_false]) taken rest

theorem take_noSort
    (takesNoSort : grammar.takesNoSort = true) (reversed : List Item) :
    Scan.take grammar ⟨reversed, none, false⟩ "--no-sort" =
      .ok ⟨.noSort :: reversed, none, false⟩ := by
  have form : Word.ofString "--no-sort" = .long "no-sort" none := by
    decide
  have unnamed : grammar.option? "no-sort" = none :=
    ValueOption.option?_eq_none grammar (by intro option; cases option <;> decide)
  have noHelp : "no-sort" ≠ "help" := by
    decide
  have noVersion : "no-sort" ≠ "version" := by
    decide
  simp only [Scan.take, form, Scan.settle, Scan.takeOption, unnamed, noHelp,
    noVersion, takesNoSort, Scan.push, Bool.false_eq_true, if_false,
    decide_true, Bool.and_true, if_true]

/-- A word that can only be an input is read as one, unless there is one. -/
theorem scanFrom_input
    {scan : Scan} {path : String}
    (takesInput : grammar.takesInput = true)
    (noCommand : grammar.takesCommand = false)
    (isInput : scan.take grammar path = scan.takeInput grammar path)
    (rest : List String) :
    scanFrom grammar scan (path :: rest) =
      if (Arguments.inputs (.input path :: scan.reversed)).length ≤ 1 then
        scanFrom grammar (scan.push (.input path)) rest
      else .error .unknownArgument := by
  rw [takeInput_eq takesInput] at isInput
  rw [scanFrom, noCommand, Bool.false_and, Bool.false_and, Bool.false_and,
    if_neg Bool.false_ne_true, isInput, Arguments.inputs_input_cons,
    List.length_cons]
  cases Arguments.inputs scan.reversed with
  | nil =>
      rfl
  | cons other others =>
      rw [if_neg (List.cons_ne_nil other others),
        if_neg (by rw [List.length_cons]; omega)]

/-- The words of one argument are read as this argument, unless it is a second
input. -/
theorem scanFrom_item
    {item : Item} (taken : grammar.Takes item)
    {words : List String} (written : item.WrittenAs words)
    {reversed : List Item}
    (few : (Arguments.inputs reversed).length ≤ 1) (rest : List String) :
    scanFrom grammar ⟨reversed, none, false⟩ (words ++ rest) =
      if (Arguments.inputs (item :: reversed)).length ≤ 1 then
        scanFrom grammar ⟨item :: reversed, none, false⟩ rest
      else .error .unknownArgument := by
  cases written with
  | apart alone =>
      rw [Arguments.inputs_valued_cons, if_pos few]
      exact scanFrom_apart taken alone reversed rest
  | joined behindSigns =>
      rw [Arguments.inputs_valued_cons, if_pos few]
      exact scanFrom_joined taken behindSigns reversed rest
  | noSort =>
      rw [Arguments.inputs_noSort_cons, if_pos few]
      exact
        scanFrom_cons_of_take
          (by rw [not_command_of_dash (by decide), Bool.and_false])
          (take_noSort taken reversed) rest
  | @input path alone =>
      have isInput :
          Scan.take grammar ⟨reversed, none, false⟩ path =
            Scan.takeInput grammar ⟨reversed, none, false⟩ path := by
        simp only [Scan.take, Word.ofString_of_standsAlone alone,
          Bool.false_eq_true, if_false]
      exact scanFrom_input taken.1 taken.2 isInput rest

/-- Words of arguments are read one argument after the other, up to a second
input. -/
theorem scanFrom_written
    {arguments : Arguments} {words : List String}
    (written : arguments.WrittenAs words)
    (taken : ∀ item ∈ arguments, grammar.Takes item)
    (reversed : List Item)
    (few : (Arguments.inputs reversed).length ≤ 1) (rest : List String) :
    scanFrom grammar ⟨reversed, none, false⟩ (words ++ rest) =
      if (Arguments.inputs (arguments.reverse ++ reversed)).length ≤ 1 then
        scanFrom grammar ⟨arguments.reverse ++ reversed, none, false⟩ rest
      else .error .unknownArgument := by
  induction written generalizing reversed with
  | nil =>
      rw [List.reverse_nil, List.nil_append, List.nil_append, if_pos few]
  | @cons item itemWords remaining others first _ inductionHypothesis =>
      rw [List.append_assoc,
        scanFrom_item (taken item List.mem_cons_self) first few,
        List.reverse_cons, List.append_assoc, List.singleton_append]
      by_cases stillFew : (Arguments.inputs (item :: reversed)).length ≤ 1
      · rw [if_pos stillFew]
        exact
          inductionHypothesis
            (fun other member => taken other (List.mem_cons_of_mem item member))
            (item :: reversed) stillFew
      · -- What is read later does not take an input away.
        rw [if_neg stillFew, if_neg]
        rw [Arguments.inputs_append, List.length_append]
        omega

/-- Behind two dashes all words are inputs. -/
theorem scanFrom_paths
    (takesInput : grammar.takesInput = true)
    (noCommand : grammar.takesCommand = false)
    (paths : List String) (reversed : List Item)
    (few : (Arguments.inputs reversed).length ≤ 1) :
    scanFrom grammar ⟨reversed, none, true⟩ paths =
      if (Arguments.inputs (reversed.reverse ++ paths.map .input)).length ≤ 1 then
        .ok ⟨reversed.reverse ++ paths.map .input, none, none⟩
      else .error .unknownArgument := by
  induction paths generalizing reversed with
  | nil =>
      rw [List.map_nil, List.append_nil, Arguments.length_inputs_reverse,
        if_pos few]
      rfl
  | cons path paths inductionHypothesis =>
      rw [scanFrom_input takesInput noCommand rfl]
      by_cases stillFew :
          (Arguments.inputs (.input path :: reversed)).length ≤ 1
      · have later := inductionHypothesis (.input path :: reversed) stillFew
        rw [List.reverse_cons, List.append_assoc, List.singleton_append]
          at later
        rw [if_pos stillFew, List.map_cons]
        exact later
      · rw [if_neg stillFew, if_neg]
        rw [Arguments.inputs_input_cons, List.length_cons] at stillFew
        rw [Arguments.inputs_append, List.length_append,
          Arguments.length_inputs_reverse, List.map_cons,
          Arguments.inputs_input_cons, List.length_cons]
        omega

/-- Words of arguments up to the end of a command line are read as these arguments,
unless two of them are inputs. -/
theorem scan_writtenToEnd
    {arguments : Arguments} {words : List String}
    (written : arguments.WrittenToEnd words)
    (taken : ∀ item ∈ arguments, grammar.Takes item)
    (takesInput : grammar.takesInput = true)
    (noCommand : grammar.takesCommand = false) :
    scan grammar words =
      if arguments.inputs.length ≤ 1 then .ok ⟨arguments, none, none⟩
      else .error .unknownArgument := by
  cases written with
  | unseparated written =>
      have read := scanFrom_written written taken [] (Nat.zero_le 1) []
      rw [List.append_nil, List.append_nil, Arguments.length_inputs_reverse]
        at read
      rw [scan, read]
      simp only [scanFrom, Scan.settle, List.reverse_reverse]
  | @separated arguments words written paths =>
      have read :=
        scanFrom_written written
          (fun item member => taken item (List.mem_append_left _ member))
          [] (Nat.zero_le 1) ("--" :: paths)
      rw [List.append_nil, Arguments.length_inputs_reverse] at read
      rw [scan, read]
      by_cases few : arguments.inputs.length ≤ 1
      · have separated :
            Scan.take grammar ⟨arguments.reverse, none, false⟩ "--" =
              .ok ⟨arguments.reverse, none, true⟩ := by
          rfl
        have ended :=
          scanFrom_paths takesInput noCommand paths arguments.reverse
            (by rwa [Arguments.length_inputs_reverse])
        rw [List.reverse_reverse] at ended
        rw [if_pos few,
          scanFrom_cons_of_take
            (by rw [noCommand, Bool.false_and, Bool.false_and, Bool.false_and])
            separated,
          ended]
      · rw [if_neg few, if_neg]
        rw [Arguments.inputs_append, List.length_append]
        omega

/-- Words of arguments before a command are read as these arguments. -/
theorem scan_written_command
    {arguments : Arguments} {words : List String}
    (written : arguments.WrittenAs words)
    (taken : ∀ item ∈ arguments, grammar.Takes item)
    (takesCommand : grammar.takesCommand = true)
    {name : String} (isCommand : name ∈ commandNames) (rest : List String) :
    scan grammar (words ++ name :: rest) =
      .ok ⟨arguments, none, some (name, rest)⟩ := by
  have noInput : ∀ item ∈ arguments.reverse, Item.input? item = none := by
    intro item member
    have itemTaken := taken item (List.mem_reverse.mp member)
    cases item with
    | input path =>
        exact
          (Bool.false_ne_true (itemTaken.2.symm.trans takesCommand)).elim
    | valued option value =>
        rfl
    | noSort =>
        rfl
  have few : (Arguments.inputs (arguments.reverse ++ [])).length ≤ 1 := by
    rw [List.append_nil, Arguments.inputs,
      List.filterMap_eq_nil_iff.mpr noInput]
    exact Nat.zero_le 1
  rw [scan, scanFrom_written written taken [] (Nat.zero_le 1), if_pos few,
    List.append_nil, scanFrom]
  have found : commandNames.contains name = true :=
    List.contains_iff_mem.mpr isCommand
  simp only [takesCommand, found, Option.isNone_none, Bool.not_false,
    Bool.and_self, if_true, List.reverse_reverse]

end Scanning

end SemanticTokens
