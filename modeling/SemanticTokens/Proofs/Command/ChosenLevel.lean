import SemanticTokens.Proofs.Command.Tasks
import SemanticTokens.Proofs.Command.Words

/-!
# Where the level of the log comes from

A log level may be given before the command, among the arguments of the command and
by the environment.  The level that is given last on the command line is taken, then
that of the environment, then the default.  It has no part in the task.

The environment is checked in any case.  What it holds has to be a level even if the
command line gives one in both places.
-/

namespace SemanticTokens

def Arguments.ofLevel (level : Option Threshold) : Arguments :=
  level.toList.map fun level => .valued .logLevel (some level.name)

theorem Threshold.ofName?_name
    (level : Threshold) :
    Threshold.ofName? level.name = some level := by
  cases level with
  | off =>
      decide
  | upTo level =>
      cases level <;> decide

namespace Arguments

/-! ## Arguments with a level among them -/

theorem given_ofLevel
    (level : Option Threshold) :
    (ofLevel level).given .logLevel =
      level.toList.map fun level => some level.name := by
  cases level <;> rfl

theorem given_ofLevel_of_ne
    (level : Option Threshold) {option : ValueOption}
    (differs : option ≠ .logLevel) :
    (ofLevel level).given option = [] := by
  cases level with
  | none =>
      rfl
  | some level =>
      have noOccurrence :
          Item.given? option (.valued .logLevel (some level.name)) = none :=
        if_neg (Ne.symm differs)
      rw [given, ofLevel, Option.toList_some, List.map_singleton,
        List.filterMap_cons_none noOccurrence, List.filterMap_nil]

theorem inputs_ofLevel
    (level : Option Threshold) :
    (ofLevel level).inputs = [] := by
  cases level <;> rfl

theorem eq_of_mem_ofLevel
    {level : Option Threshold} {item : Item} (member : item ∈ ofLevel level) :
    ∃ threshold, level = some threshold ∧
      item = .valued .logLevel (some threshold.name) := by
  rw [ofLevel, List.mem_map] at member
  obtain ⟨threshold, isLevel, rfl⟩ := member
  exact ⟨threshold, Option.mem_toList.mp isLevel, rfl⟩

theorem allowed_of_mem_ofLevel
    {level : Option Threshold} {option : ValueOption} {value : Option String}
    (member : .valued option value ∈ ofLevel level) :
    ∃ text, value = some text ∧ option.allows text = true := by
  obtain ⟨threshold, _, same⟩ := eq_of_mem_ofLevel member
  cases same
  refine ⟨threshold.name, rfl, ?_⟩
  rw [ValueOption.allows, threshold.ofName?_name, Option.isSome_some]

theorem length_given_ofLevel_le
    (level : Option Threshold) (option : ValueOption) :
    ((ofLevel level).given option).length ≤ 1 := by
  by_cases isLevel : option = .logLevel
  · rw [isLevel, given_ofLevel, List.length_map]
    exact Option.length_toList_le
  · rw [given_ofLevel_of_ne level isLevel]
    exact Nat.zero_le 1

theorem noSort_not_mem_ofLevel
    (level : Option Threshold) :
    .noSort ∉ ofLevel level := by
  intro member
  obtain ⟨_, _, same⟩ := eq_of_mem_ofLevel member
  cases same

theorem wellFormed_ofLevel
    (level : Option Threshold) :
    (ofLevel level).WellFormed .program where
  taken := by
    intro item member
    obtain ⟨threshold, _, rfl⟩ := eq_of_mem_ofLevel member
    exact List.mem_singleton_self _
  oneInput := by
    intro takesInput
    cases takesInput
  allowed _ _ := allowed_of_mem_ofLevel
  once := length_given_ofLevel_le level
  noSortOnce := by
    rw [List.count_eq_zero.mpr (noSort_not_mem_ofLevel level)]
    exact Nat.zero_le 1

/-- The encoding command alone has no log level. -/
theorem Valid.given_logLevel_eq_nil
    {arguments : Arguments} (valid : arguments.Valid .encodeAlone) :
    arguments.given .logLevel = [] := by
  rw [List.eq_nil_iff_forall_not_mem]
  intro value member
  have taken : .logLevel ∈ Grammar.encodeAlone.options :=
    valid.taken _ (mem_given_iff.mp member)
  exact absurd taken (by decide)

section Insertion

variable {first second : Arguments}

theorem given_insert_ofLevel
    (level : Option Threshold) {option : ValueOption}
    (differs : option ≠ .logLevel) :
    given (first ++ ofLevel level ++ second) option =
      given (first ++ second) option :=
  given_insert_eq (given_ofLevel_of_ne level differs)

theorem given_logLevel_insert_ofLevel
    (valid : Valid .encodeAlone (first ++ second)) (level : Option Threshold) :
    given (first ++ ofLevel level ++ second) .logLevel =
      level.toList.map fun level => some level.name := by
  have none := valid.given_logLevel_eq_nil
  rw [given_append, List.append_eq_nil_iff] at none
  rw [given_append, given_append, none.1, none.2, given_ofLevel,
    List.nil_append, List.append_nil]

theorem count_noSort_insert_ofLevel
    (level : Option Threshold) :
    List.count .noSort (first ++ ofLevel level ++ second) =
      List.count .noSort (first ++ second) :=
  count_noSort_insert_eq (noSort_not_mem_ofLevel level)

/-- A log level may stand between any two arguments. -/
theorem WellFormed.insert_ofLevel
    (wellFormed : WellFormed .encodeAlone (first ++ second))
    (level : Option Threshold) :
    WellFormed .encode (first ++ ofLevel level ++ second) where
  toValid := by
    apply wellFormed.toValid.encode.insert
    · intro item member
      obtain ⟨threshold, _, rfl⟩ := eq_of_mem_ofLevel member
      exact List.mem_cons_self
    · exact inputs_ofLevel level
    · exact fun _ _ => allowed_of_mem_ofLevel
  once := by
    intro option
    by_cases isLevel : option = .logLevel
    · rw [isLevel, given_logLevel_insert_ofLevel wellFormed.toValid,
        List.length_map]
      exact Option.length_toList_le
    · rw [given_insert_ofLevel level isLevel]
      exact wellFormed.once option
  noSortOnce := by
    rw [count_noSort_insert_ofLevel]
    exact wellFormed.noSortOnce

end Insertion

/-! ## Choosing a level -/

theorem has_logLevel_eq
    {arguments : Arguments} {level : Option Threshold}
    (given :
      arguments.given .logLevel = level.toList.map fun level => some level.name) :
    arguments.has .logLevel = level.isSome := by
  rw [Bool.eq_iff_iff, has_eq_true_iff, given]
  cases level <;> simp

theorem valueOrElse?_logLevel_eq
    {arguments : Arguments} {level : Option Threshold}
    (given :
      arguments.given .logLevel = level.toList.map fun level => some level.name)
    (ambient : Option Threshold) :
    arguments.valueOrElse? (ambient.map Threshold.name) .logLevel =
      some ((level.or ambient).getD (.upTo .warn)).name := by
  rw [valueOrElse?, value?_eq_head?, given]
  cases level with
  | some level =>
      rfl
  | none =>
      cases ambient <;> rfl

end Arguments

/-- The level of the command is taken before that of the program, then that of the
environment, then the default. -/
theorem threshold_eq_ok
    {outer inner : Arguments} {outerLevel innerLevel : Option Threshold}
    (outerGiven :
      outer.given .logLevel = outerLevel.toList.map fun level => some level.name)
    (innerGiven :
      inner.given .logLevel = innerLevel.toList.map fun level => some level.name)
    (ambient : Option Threshold) :
    threshold outer inner (ambient.map Threshold.name) =
      .ok (((innerLevel.or outerLevel).or ambient).getD (.upTo .warn)) := by
  rw [threshold, Arguments.has_logLevel_eq innerGiven]
  cases innerLevel with
  | some level =>
      simp only [Option.isSome_some, if_true,
        Arguments.valueOrElse?_logLevel_eq innerGiven, Option.bind_some,
        Threshold.ofName?_name, Option.some_or]
  | none =>
      simp only [Option.isSome_none, Bool.false_eq_true, if_false,
        Arguments.valueOrElse?_logLevel_eq outerGiven, Option.bind_some,
        Threshold.ofName?_name, Option.none_or]

theorem threshold_congr
    {inner others : Arguments}
    (same : inner.given .logLevel = others.given .logLevel)
    (outer : Arguments) (environment : Option String) :
    threshold outer inner environment = threshold outer others environment := by
  simp only [threshold, Arguments.has_congr same]
  cases others.has .logLevel with
  | true =>
      simp only [if_true, Arguments.valueOrElse?_congr same]
  | false =>
      rfl

theorem Arguments.Valid.exists_level
    {grammar : Grammar} {arguments : Arguments} {environment : Option String}
    (valid : arguments.Valid grammar)
    (allowed : Arguments.AllowsEnvironment environment) :
    ∃ level,
      (arguments.valueOrElse? environment .logLevel).bind Threshold.ofName? =
        some level := by
  cases occurrences : arguments.given .logLevel with
  | nil =>
      rw [valueOrElse?, value?_eq_head?, occurrences]
      cases environment with
      | none =>
          exact ⟨.upTo .warn, by decide⟩
      | some text =>
          exact Option.isSome_iff_exists.mp (allowed text rfl)
  | cons first others =>
      have member : first ∈ arguments.given .logLevel := by
        rw [occurrences]
        exact List.mem_cons_self
      obtain ⟨text, rfl, isLevel⟩ :=
        valid.allowed .logLevel first (mem_given_iff.mp member)
      rw [valueOrElse?, value?_eq_head?, occurrences]
      exact Option.isSome_iff_exists.mp isLevel

/-- There is always a level to take. -/
theorem exists_threshold_eq_ok
    {outerGrammar innerGrammar : Grammar} {outer inner : Arguments}
    {environment : Option String}
    (outerValid : outer.Valid outerGrammar)
    (innerValid : inner.Valid innerGrammar)
    (allowed : Arguments.AllowsEnvironment environment) :
    ∃ level, threshold outer inner environment = .ok level := by
  obtain ⟨outerLevel, outerRead⟩ := outerValid.exists_level allowed
  obtain ⟨innerLevel, innerRead⟩ := innerValid.exists_level allowed
  rw [threshold]
  cases inner.has .logLevel with
  | true =>
      exact ⟨innerLevel, by simp only [if_true, innerRead]⟩
  | false =>
      refine ⟨outerLevel, ?_⟩
      simp only [Bool.false_eq_true, if_false, outerRead]

theorem allowsEnvironment_name
    (ambient : Option Threshold) :
    Arguments.AllowsEnvironment (ambient.map Threshold.name) := by
  intro text surrounding
  obtain ⟨level, _, rfl⟩ := Option.map_eq_some_iff.mp surrounding
  rw [ValueOption.allows, level.ofName?_name, Option.isSome_some]

/-- Well-formed arguments with a log level given or not, among them, before the
command and by the environment, ask for the same task as without any level, and the
levels are taken in this order.  If the environment holds no level, nothing is asked
for, whatever levels are given. -/
theorem parse_encode_chooses_level
    {first second : Arguments} {before after front inner : List String}
    {outerLevel innerLevel : Option Threshold}
    (wellFormed : Arguments.WellFormed .encodeAlone (first ++ second))
    (writtenBefore : first.WrittenAs before)
    (writtenAfter : second.WrittenToEnd after)
    (outerWritten : (Arguments.ofLevel outerLevel).WrittenAs front)
    (innerWritten : (Arguments.ofLevel innerLevel).WrittenAs inner) :
    (∃ task,
        parseEncode (before ++ after) = .ok task ∧
          ∀ ambient : Option Threshold,
            parse (front ++ "encode" :: (before ++ inner ++ after))
                (ambient.map Threshold.name) =
              .ok ⟨((innerLevel.or outerLevel).or ambient).getD (.upTo .warn),
                .encode task⟩) ∧
      ∀ text, (∀ level : Threshold, level.name ≠ text) →
        parse (front ++ "encode" :: (before ++ inner ++ after)) (some text) =
          .error .invalidValue := by
  have longer := wellFormed.insert_ofLevel innerLevel
  have outerWellFormed := Arguments.wellFormed_ofLevel outerLevel
  have scanned :=
    scan_written_command outerWritten outerWellFormed.taken rfl
      (show "encode" ∈ commandNames by decide) (before ++ inner ++ after)
  have ended :=
    longer.scan_eq_ok
      ((writtenBefore.append innerWritten).append_toEnd writtenAfter) rfl rfl
  constructor
  · obtain ⟨task, asked⟩ := wellFormed.exists_encodeTask_eq_ok rfl
    have read :=
      wellFormed.scan_eq_ok (writtenBefore.append_toEnd writtenAfter) rfl rfl
    have sameTask :
        encodeTask (first ++ Arguments.ofLevel innerLevel ++ second) =
          encodeTask (first ++ second) := by
      apply Arguments.encodeTask_congr
      · rw [Arguments.inputs_append, Arguments.inputs_append,
          Arguments.inputs_append, Arguments.inputs_ofLevel, List.append_nil]
      · exact fun option => Arguments.given_insert_ofLevel innerLevel
      · rw [Bool.eq_iff_iff, List.contains_iff_mem, List.contains_iff_mem,
          ← List.count_pos_iff, ← List.count_pos_iff,
          Arguments.count_noSort_insert_ofLevel]
    refine ⟨task, ?_, ?_⟩
    · rw [parseEncode_of_scan read wellFormed, asked]
    · intro ambient
      have allowed := allowsEnvironment_name ambient
      exact
        parse_encode_of_checks scanned rfl ended
          (longer.check_eq_ok allowed none)
          (outerWellFormed.check_eq_ok allowed _) (sameTask.trans asked)
          (threshold_eq_ok (Arguments.given_ofLevel outerLevel)
            (Arguments.given_logLevel_insert_ofLevel wellFormed.toValid
              innerLevel)
            ambient)
  · intro text unknown
    have refused : ValueOption.logLevel.allows text = false := by
      rw [ValueOption.allows, ← Bool.not_eq_true, Option.isSome_iff_exists]
      rintro ⟨level, found⟩
      have sameName := List.find?_some found
      rw [beq_iff_eq] at sameName
      exact unknown level sameName
    exact
      parse_encode_of_check_error scanned rfl ended
        (longer.check_eq_error_of_environment List.mem_cons_self refused none)

/-- A level before the command, one among its arguments and one in the
environment. -/
theorem parse_encode_chooses_inner_level :
    let task : EncodeTask := { input := "a.json", format := .pretty }
    Arguments.AskFor ([.input "a.json"] ++ [.valued .format (some "pretty")])
        task ∧
      parse
          ["--log-level=off", "encode", "a.json", "--log-level", "debug",
            "--format=pretty"]
          (some "trace") =
        .ok ⟨.upTo .debug, .encode task⟩ ∧
      parse
          ["--log-level=off", "encode", "a.json", "--log-level", "debug",
            "--format=pretty"]
          (some "TRACE") =
        .error .invalidValue := by
  intro task
  have asks :
      Arguments.AskFor ([.input "a.json"] ++ [.valued .format (some "pretty")])
        task :=
    { input := by rfl
      format := ⟨"pretty", rfl, Or.inl rfl⟩
      unit := ⟨"utf-32", rfl, Or.inr ⟨rfl, rfl⟩⟩
      limit := ⟨"4", ⟨0, Or.inl (by decide)⟩, Or.inr ⟨rfl, rfl⟩⟩
      source := by rfl
      noSort := by rfl
      noLevel := by rfl }
  have input : Item.WrittenAs (.input "a.json") ["a.json"] :=
    .input (by decide)
  have format :
      Item.WrittenAs (.valued .format (some "pretty")) ["--format=pretty"] :=
    @Item.WrittenAs.joined .format "pretty" "pretty" rfl
  have outer :
      Item.WrittenAs (.valued .logLevel (some "off")) ["--log-level=off"] :=
    @Item.WrittenAs.joined .logLevel "off" "off" rfl
  have inner :
      Item.WrittenAs (.valued .logLevel (some "debug"))
        ["--log-level", "debug"] :=
    @Item.WrittenAs.apart .logLevel "debug" (by decide)
  obtain ⟨⟨found, asked, chosen⟩, refused⟩ :=
    @parse_encode_chooses_level [.input "a.json"]
      [.valued .format (some "pretty")] ["a.json"] ["--format=pretty"]
      ["--log-level=off"] ["--log-level", "debug"] (some .off)
      (some (.upTo .debug)) (asks.wellFormed (by decide)) (.singleton input)
      (.unseparated (.singleton format)) (.singleton outer) (.singleton inner)
  have sameTask : found = task :=
    Except.ok.inj (asked.symm.trans (by rfl))
  have unknown : ∀ level : Threshold, level.name ≠ "TRACE" := by
    intro level
    cases level with
    | off =>
        decide
    | upTo level =>
        cases level <;> decide
  rw [sameTask] at chosen
  exact ⟨asks, chosen (some (.upTo .trace)), refused "TRACE" unknown⟩

/-- Both parsers are given a level, so that neither needs that of the environment;
what the environment holds is refused all the same. -/
theorem parse_encode_refuses_environment_of_given_levels :
    parse ["--log-level", "info", "encode", "-", "--log-level", "debug"] none =
        .ok ⟨.upTo .debug, .encode { input := "-" }⟩ ∧
      Threshold.ofName? "bogus" = none ∧
      parse ["--log-level", "info", "encode", "-", "--log-level", "debug"]
          (some "bogus") =
        .error .invalidValue :=
  ⟨rfl, rfl, rfl⟩

end SemanticTokens
