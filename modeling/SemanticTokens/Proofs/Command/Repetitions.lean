import SemanticTokens.Proofs.Command.Tasks
import SemanticTokens.Proofs.Command.Words

/-!
# Repeated arguments

No repetition is resolved silently.  A further occurrence of an option or of the flag
is refused after all words are read, whatever its value and wherever it stands, and a
second input is refused as soon as it is read.  Both hold for the encoding command
alone and within the program.
-/

namespace SemanticTokens

/-- Whether an argument is a further occurrence, with an allowed value of its own, of
an option or of the flag among some arguments. -/
def Item.Repeats (arguments : Arguments) : Item → Prop
  | .valued option value =>
      arguments.given option ≠ [] ∧
        ∃ text, value = some text ∧ option.allows text = true
  | .noSort => .noSort ∈ arguments
  | .input _ => False

namespace Arguments

/-! ## Valid arguments with one more -/

section Insertion

variable {grammar : Grammar} {first second : Arguments} {again : Item}

theorem Valid.takes_of_repeats
    (valid : Valid grammar (first ++ second))
    (repeats : again.Repeats (first ++ second)) :
    grammar.Takes again := by
  cases again with
  | valued option value =>
      obtain ⟨occurrence, member⟩ :=
        List.exists_mem_of_ne_nil _ repeats.1
      exact valid.taken (.valued option occurrence) (mem_given_iff.mp member)
  | noSort =>
      exact valid.taken .noSort repeats
  | input path =>
      exact repeats.elim

theorem Valid.insert_again
    (valid : Valid grammar (first ++ second))
    (repeats : again.Repeats (first ++ second)) :
    Valid grammar (first ++ [again] ++ second) := by
  apply valid.insert
  · intro item member
    rw [List.mem_singleton.mp member]
    exact valid.takes_of_repeats repeats
  · cases again with
    | valued option value =>
        rfl
    | noSort =>
        rfl
    | input path =>
        exact repeats.elim
  · intro option value member
    rw [List.mem_singleton] at member
    subst again
    exact repeats.2

/-- The further occurrence is counted together with the one that it repeats. -/
theorem repeated_of_repeats
    (repeats : again.Repeats (first ++ second)) :
    (∃ option, 1 < (given (first ++ [again] ++ second) option).length) ∨
      1 < List.count .noSort (first ++ [again] ++ second) := by
  cases again with
  | valued option value =>
      have present := List.length_pos_iff.mpr repeats.1
      refine Or.inl ⟨option, ?_⟩
      rw [given_append, List.length_append] at present
      rw [given_append, given_append, given_singleton_self,
        List.length_append, List.length_append, List.length_singleton]
      omega
  | noSort =>
      have present : 0 < List.count .noSort (first ++ second) :=
        List.count_pos_iff.mpr repeats
      rw [List.count_append] at present
      rw [List.count_append, List.count_append, List.count_singleton_self]
      exact Or.inr (by omega)
  | input path =>
      exact repeats.elim

theorem taken_insert_input
    (takesInput : grammar.takesInput = true)
    (noCommand : grammar.takesCommand = false)
    (valid : Valid grammar (first ++ second)) (path : String) :
    ∀ item ∈ first ++ [.input path] ++ second, grammar.Takes item := by
  intro item member
  rcases mem_insert_iff.mp member with old | new
  · exact valid.taken item old
  · rw [List.mem_singleton.mp new]
    exact ⟨takesInput, noCommand⟩

theorem two_inputs_of_insert
    (takesInput : grammar.takesInput = true)
    (valid : Valid grammar (first ++ second)) (path : String) :
    ¬ (inputs (first ++ [.input path] ++ second)).length ≤ 1 := by
  have counted := valid.oneInput takesInput
  have added : inputs [.input path] = [path] := by
    rfl
  rw [inputs_append, List.length_append] at counted
  rw [inputs_append, inputs_append, added, List.length_append,
    List.length_append, List.length_singleton]
  omega

end Insertion

/-- Valid arguments within the program without a log level are valid for the encoding
command alone. -/
theorem Valid.encodeAlone
    {arguments : Arguments} (valid : arguments.Valid .encode)
    (noLevel : arguments.given .logLevel = []) :
    arguments.Valid .encodeAlone where
  taken := by
    intro item member
    have taken := valid.taken item member
    cases item with
    | valued option value =>
        rcases List.mem_cons.mp taken with rfl | known
        · have occurs := mem_given_iff.mpr member
          rw [noLevel] at occurs
          cases occurs
        · exact known
    | noSort =>
        exact taken
    | input path =>
        exact taken
  oneInput := valid.oneInput
  allowed := valid.allowed

theorem WellFormed.encodeAlone
    {arguments : Arguments} (wellFormed : arguments.WellFormed .encode)
    (noLevel : arguments.given .logLevel = []) :
    arguments.WellFormed .encodeAlone :=
  ⟨wellFormed.toValid.encodeAlone noLevel, wellFormed.once,
    wellFormed.noSortOnce⟩

end Arguments

/-! ## Words with one more argument -/

section Reading

variable {grammar : Grammar} {environment : Option String}
  {first second : Arguments} {before after : List String}

/-- The words are read to their end, and the check finds the repetition. -/
theorem exists_scan_of_repetition
    (takesInput : grammar.takesInput = true)
    (noCommand : grammar.takesCommand = false)
    (allowed : Arguments.AllowsEnvironment environment)
    (valid : Arguments.Valid grammar (first ++ second))
    (writtenBefore : first.WrittenAs before)
    (writtenAfter : second.WrittenToEnd after)
    {again : Item} (repeats : again.Repeats (first ++ second))
    {words : List String} (written : again.WrittenAs words) :
    ∃ scanned,
      scan grammar (before ++ words ++ after) = .ok scanned ∧
        scanned.check grammar environment = .error .repeatedArgument := by
  have longer := valid.insert_again repeats
  have read :=
    longer.scan_eq_ok
      ((writtenBefore.append (.singleton written)).append_toEnd writtenAfter)
      takesInput noCommand
  exact
    ⟨_, read,
      longer.check_eq_error allowed (Arguments.repeated_of_repeats repeats) none⟩

/-- The second of two inputs is refused, whichever of them it is. -/
theorem scan_of_second_input
    (takesInput : grammar.takesInput = true)
    (noCommand : grammar.takesCommand = false)
    (valid : Arguments.Valid grammar (first ++ second))
    (writtenBefore : first.WrittenAs before)
    (writtenAfter : second.WrittenToEnd after)
    {path : String} (alone : StandsAlone path) :
    scan grammar (before ++ [path] ++ after) = .error .unknownArgument := by
  rw [scan_writtenToEnd
      ((writtenBefore.append (.singleton (.input alone))).append_toEnd
        writtenAfter)
      (Arguments.taken_insert_input takesInput noCommand valid path) takesInput
      noCommand,
    if_neg (Arguments.two_inputs_of_insert takesInput valid path)]

end Reading

/-- One more occurrence of an option or the flag among well-formed arguments is a
repeated argument, and one more input is unknown, at whatever place before the end of
the options and whatever stands before the command.  Without a log level among the
arguments the encoding command alone refuses them for the same reason. -/
theorem parse_encode_refuses_repetition
    {outer first second : Arguments} {front before after : List String}
    (outerTaken : ∀ item ∈ outer, Grammar.program.Takes item)
    (outerWritten : outer.WrittenAs front)
    (wellFormed : Arguments.WellFormed .encode (first ++ second))
    (writtenBefore : first.WrittenAs before)
    (writtenAfter : second.WrittenToEnd after)
    {environment : Option String}
    (allowed : Arguments.AllowsEnvironment environment) :
    (∀ (again : Item) (words : List String),
        again.Repeats (first ++ second) → again.WrittenAs words →
          parse (front ++ "encode" :: (before ++ words ++ after)) environment =
              .error .repeatedArgument ∧
            (Arguments.given (first ++ second) .logLevel = [] →
              parseEncode (before ++ words ++ after) =
                .error .repeatedArgument)) ∧
      ∀ path, StandsAlone path →
        parse (front ++ "encode" :: (before ++ [path] ++ after)) environment =
            .error .unknownArgument ∧
          (Arguments.given (first ++ second) .logLevel = [] →
            parseEncode (before ++ [path] ++ after) =
              .error .unknownArgument) := by
  have scanned (rest : List String) :=
    scan_written_command outerWritten outerTaken rfl
      (show "encode" ∈ commandNames by decide) rest
  have valid := wellFormed.toValid
  constructor
  · intro again words repeats written
    constructor
    · obtain ⟨inner, read, refused⟩ :=
        exists_scan_of_repetition rfl rfl allowed valid writtenBefore
          writtenAfter repeats written
      exact parse_encode_of_check_error (scanned _) rfl read refused
    · intro noLevel
      obtain ⟨inner, read, refused⟩ :=
        exists_scan_of_repetition rfl rfl Arguments.allowsEnvironment_none
          (valid.encodeAlone noLevel) writtenBefore writtenAfter repeats
          written
      exact parseEncode_of_check_error read refused
  · intro path alone
    constructor
    · have refused :=
        scan_of_second_input rfl rfl valid writtenBefore writtenAfter alone
      exact parse_encode_of_scan_error (scanned _) rfl (by rw [refused]; rfl)
    · intro noLevel
      exact
        parseEncode_of_scan_error
          (scan_of_second_input rfl rfl (valid.encodeAlone noLevel)
            writtenBefore writtenAfter alone)

/-- A repeated option with another value, and a second input, between an input and the
end of the options. -/
theorem parse_encode_refuses_second_encoding :
    Arguments.WellFormed .encode
        ([.valued .encoding (some "utf-8"), .input "a.json"] ++ [.noSort]) ∧
      parse
          ["--log-level=off", "encode", "--encoding", "utf-8", "a.json",
            "--encoding=utf-16", "--no-sort"]
          none =
        .error .repeatedArgument ∧
      parseEncode
          ["--encoding", "utf-8", "a.json", "--encoding=utf-16",
            "--no-sort"] =
        .error .repeatedArgument ∧
      parse
          ["--log-level=off", "encode", "--encoding", "utf-8", "a.json",
            "utf-16", "--no-sort"]
          none =
        .error .unknownArgument := by
  have asks :
      Arguments.AskFor
        ([.valued .encoding (some "utf-8"), .input "a.json"] ++ [.noSort])
        { input := "a.json", unit := .utf8, sortsByPosition := false } :=
    { input := by rfl
      format := ⟨"json", rfl, Or.inr ⟨rfl, rfl⟩⟩
      unit := ⟨"utf-8", rfl, Or.inl rfl⟩
      limit := ⟨"4", ⟨0, Or.inl (by decide)⟩, Or.inr ⟨rfl, rfl⟩⟩
      source := by rfl
      noSort := by rfl
      noLevel := by rfl }
  have alone := asks.wellFormed (by decide)
  have wellFormed :
      Arguments.WellFormed .encode
        ([.valued .encoding (some "utf-8"), .input "a.json"] ++ [.noSort]) :=
    ⟨alone.toValid.encode, alone.once, alone.noSortOnce⟩
  have level :
      Item.WrittenAs (.valued .logLevel (some "off")) ["--log-level=off"] :=
    @Item.WrittenAs.joined .logLevel "off" "off" rfl
  have encoding :
      Item.WrittenAs (.valued .encoding (some "utf-8"))
        ["--encoding", "utf-8"] :=
    @Item.WrittenAs.apart .encoding "utf-8" (by decide)
  have again :
      Item.WrittenAs (.valued .encoding (some "utf-16"))
        ["--encoding=utf-16"] :=
    @Item.WrittenAs.joined .encoding "utf-16" "utf-16" rfl
  have before :
      Arguments.WrittenAs
        [.valued .encoding (some "utf-8"), .input "a.json"]
        ["--encoding", "utf-8", "a.json"] :=
    .cons encoding (.singleton (.input (by decide)))
  have levelTaken :
      ∀ item ∈ [Item.valued .logLevel (some "off")],
        Grammar.program.Takes item := by
    intro item member
    rw [List.mem_singleton.mp member]
    exact List.mem_singleton_self _
  obtain ⟨repeated, unknown⟩ :=
    @parse_encode_refuses_repetition [.valued .logLevel (some "off")]
      [.valued .encoding (some "utf-8"), .input "a.json"] [.noSort]
      ["--log-level=off"] ["--encoding", "utf-8", "a.json"] ["--no-sort"]
      levelTaken (.singleton level) wellFormed before
      (.unseparated (.singleton .noSort)) none
      Arguments.allowsEnvironment_none
  obtain ⟨within, byItself⟩ :=
    repeated (.valued .encoding (some "utf-16")) ["--encoding=utf-16"]
      ⟨List.cons_ne_nil _ _, "utf-16", rfl, by decide⟩ again
  exact
    ⟨wellFormed, within, byItself asks.noLevel,
      (unknown "utf-16" (by decide)).1⟩

end SemanticTokens
