import SemanticTokens.Proofs.Command.WellFormed
import SemanticTokens.Proofs.Text.Fields

/-!
# Arguments that ask for a task

A task can be asked for in many ways: its arguments may stand in any order, options
may be written in one word or in two, the limit may have a sign and leading zeros,
and what is so by default may be left out.  All of them are read as the same task.
-/

namespace SemanticTokens

open Text

/-- The decimal notation of a limit, with or without a plus sign and with any number
of leading zeros. -/
def WritesLimit (limit : Nat) (text : String) : Prop :=
  ∃ zeros,
    text.toList = List.replicate zeros '0' ++ Nat.toDigits 10 limit ∨
      text.toList = '+' :: (List.replicate zeros '0' ++ Nat.toDigits 10 limit)

namespace Arguments

/-- Whether an option is given once, with a value of some meaning, or is left out and
has a value of this meaning by default. -/
def Gives (arguments : Arguments) (option : ValueOption) (means : String → Prop) :
    Prop :=
  ∃ value, means value ∧
    (arguments.given option = [some value] ∨
      arguments.given option = [] ∧ option.default? = some value)

/-- Whether arguments give exactly what a task consists of, in whatever order. -/
structure AskFor (arguments : Arguments) (task : EncodeTask) : Prop where
  input : arguments.inputs = [task.input]
  format : arguments.Gives .format (· = task.format.name)
  unit : arguments.Gives .encoding (· = task.unit.name)
  limit : arguments.Gives .inferenceLimit (WritesLimit task.inferenceLimit)
  source : arguments.given .source = task.source.toList.map some
  noSort : List.count .noSort arguments = if task.sortsByPosition then 0 else 1
  noLevel : arguments.given .logLevel = []

end Arguments

/-! ## Reading a limit -/

section Limit

variable {digits : List Char}

theorem ne_plus_of_isDigit
    (areDigits : ∀ digit ∈ digits, digit.isDigit = true) (rest : List Char) :
    digits ≠ '+' :: rest := by
  rintro rfl
  have isDigit := areDigits '+' List.mem_cons_self
  exact absurd isDigit (by decide)

theorem readLimit?_of_digits
    (nonempty : digits ≠ [])
    (areDigits : ∀ digit ∈ digits, digit.isDigit = true) :
    readLimit? digits =
      if Nat.ofDigitChars 10 digits 0 < UInt64.size then
        some (Nat.ofDigitChars 10 digits 0)
      else none := by
  have wellFormed : (digits.isEmpty || !digits.all Char.isDigit) = false := by
    rw [List.all_eq_true.mpr areDigits, Bool.not_true, Bool.or_false,
      List.isEmpty_eq_false_iff]
    exact nonempty
  rw [readLimit?]
  · simp only [wellFormed, Bool.false_eq_true, if_false]
  · exact ne_plus_of_isDigit areDigits

theorem readLimit?_plus
    (areDigits : ∀ digit ∈ digits, digit.isDigit = true) :
    readLimit? ('+' :: digits) = readLimit? digits := by
  rw [readLimit?, readLimit?]
  exact ne_plus_of_isDigit areDigits

/-- Leading zeros do not change a value, and add to no bound. -/
theorem readLimit?_of_writesLimit
    {limit : Nat} {text : String}
    (inRange : limit < UInt64.size) (writes : WritesLimit limit text) :
    readLimit? text.toList = some limit := by
  obtain ⟨zeros, forms⟩ := writes
  have nonempty : List.replicate zeros '0' ++ Nat.toDigits 10 limit ≠ [] :=
    List.append_ne_nil_of_right_ne_nil _ Nat.toDigits_ne_nil
  have areDigits :
      ∀ digit ∈ List.replicate zeros '0' ++ Nat.toDigits 10 limit,
        digit.isDigit = true := by
    intro digit member
    rcases List.mem_append.mp member with zero | digit
    · rw [List.eq_of_mem_replicate zero]
      decide
    · exact isDigit_of_mem_toDigits_ten digit
  have value :
      Nat.ofDigitChars 10
          (List.replicate zeros '0' ++ Nat.toDigits 10 limit) 0 = limit := by
    rw [Nat.ofDigitChars_append, Nat.ofDigitChars_replicate_zero, Nat.mul_zero,
      Nat.ofDigitChars_ten_toDigits]
  have unsigned := readLimit?_of_digits nonempty areDigits
  rw [value, if_pos inRange] at unsigned
  rcases forms with form | form
  · rw [form, unsigned]
  · rw [form, readLimit?_plus areDigits, unsigned]

end Limit

/-! ## Reading a task -/

theorem OutputForm.ofName?_name
    (format : OutputForm) :
    OutputForm.ofName? format.name = some format := by
  cases format <;> decide

theorem CodeUnit.ofName?_name
    (unit : CodeUnit) :
    CodeUnit.ofName? unit.name = some unit := by
  cases unit <;> decide

namespace Arguments

theorem valueOrElse?_of_given
    {arguments : Arguments} {option : ValueOption} {value : String}
    (given : arguments.given option = [some value]) :
    arguments.valueOrElse? none option = some value := by
  rw [valueOrElse?, value?_eq_head?, given]
  rfl

theorem valueOrElse?_of_left_out
    {arguments : Arguments} {option : ValueOption}
    (leftOut : arguments.given option = []) :
    arguments.valueOrElse? none option = option.default? := by
  rw [valueOrElse?, value?_eq_head?, leftOut]
  rfl

theorem Gives.exists_valueOrElse?_eq
    {arguments : Arguments} {option : ValueOption} {means : String → Prop}
    (gives : arguments.Gives option means) :
    ∃ value, means value ∧ arguments.valueOrElse? none option = some value := by
  obtain ⟨value, meant, given | ⟨leftOut, isDefault⟩⟩ := gives
  · exact ⟨value, meant, valueOrElse?_of_given given⟩
  · refine ⟨value, meant, ?_⟩
    rw [valueOrElse?_of_left_out leftOut, isDefault]

/-- What a task is read from: the input, a value for every option, and whether the
flag is there. -/
theorem encodeTask_eq_ok
    {arguments : Arguments} {input : String} {format : OutputForm}
    {unit : CodeUnit} {limit : Nat}
    (inputRead : arguments.input? = some input)
    (formatRead :
      (arguments.valueOrElse? none .format).bind OutputForm.ofName? =
        some format)
    (unitRead :
      (arguments.valueOrElse? none .encoding).bind CodeUnit.ofName? = some unit)
    (limitRead :
      (arguments.valueOrElse? none .inferenceLimit).bind
          (readLimit? ·.toList) =
        some limit) :
    encodeTask arguments =
      .ok {
        input := input
        format := format
        unit := unit
        sortsByPosition := !arguments.contains .noSort
        inferenceLimit := limit
        source := arguments.valueOrElse? none .source } := by
  simp only [encodeTask, inputRead, formatRead, unitRead, limitRead]
  rfl

/-- A task comes from an input and from a value for every option that has a default. -/
theorem exists_of_encodeTask
    {arguments : Arguments} {task : EncodeTask}
    (asked : encodeTask arguments = .ok task) :
    ∃ input format unit limit,
      arguments.input? = some input ∧
        (arguments.valueOrElse? none .format).bind OutputForm.ofName? =
          some format ∧
        (arguments.valueOrElse? none .encoding).bind CodeUnit.ofName? =
          some unit ∧
        (arguments.valueOrElse? none .inferenceLimit).bind
            (readLimit? ·.toList) =
          some limit ∧
        task =
          { input := input
            format := format
            unit := unit
            sortsByPosition := !arguments.contains .noSort
            inferenceLimit := limit
            source := arguments.valueOrElse? none .source } := by
  unfold encodeTask at asked
  dsimp only at asked
  split at asked
  · rename_i input inputRead
    split at asked
    · rename_i format formatRead
      split at asked
      · rename_i unit unitRead
        split at asked
        · rename_i limit limitRead
          cases asked
          exact
            ⟨input, format, unit, limit, inputRead, formatRead, unitRead,
              limitRead, rfl⟩
        · cases asked
      · cases asked
    · cases asked
  · cases asked

theorem valueOrElse?_congr
    {left right : Arguments} {option : ValueOption}
    (same : left.given option = right.given option)
    (environment : Option String) :
    left.valueOrElse? environment option =
      right.valueOrElse? environment option := by
  rw [valueOrElse?, valueOrElse?, value?_eq_head?, value?_eq_head?, same]

/-- The log level, and the order of the arguments, have no part in the task. -/
theorem encodeTask_congr
    {left right : Arguments}
    (sameInputs : left.inputs = right.inputs)
    (sameGiven :
      ∀ option, option ≠ .logLevel → left.given option = right.given option)
    (sameFlag : left.contains .noSort = right.contains .noSort) :
    encodeTask left = encodeTask right := by
  have sameInput : left.input? = right.input? := by
    rw [input?_eq_head?_inputs, input?_eq_head?_inputs, sameInputs]
  have sameValue (option : ValueOption) (differs : option ≠ .logLevel) :
      left.valueOrElse? none option = right.valueOrElse? none option :=
    valueOrElse?_congr (sameGiven option differs) none
  have sameFormat := sameValue .format (by decide)
  have sameUnit := sameValue .encoding (by decide)
  have sameLimit := sameValue .inferenceLimit (by decide)
  have sameSource := sameValue .source (by decide)
  simp only [encodeTask, sameInput, sameFormat, sameUnit, sameLimit,
    sameSource, sameFlag]

/-- An option with a default always has a value that it allows. -/
theorem Valid.exists_valueOrElse?_eq
    {grammar : Grammar} {arguments : Arguments}
    (valid : arguments.Valid grammar)
    {option : ValueOption} (hasDefault : option.default?.isSome = true) :
    ∃ value, arguments.valueOrElse? none option = some value ∧
      option.allows value = true := by
  cases occurrences : arguments.given option with
  | nil =>
      rw [valueOrElse?_of_left_out occurrences]
      cases option with
      | source =>
          cases hasDefault
      | _ =>
          exact ⟨_, rfl, by decide⟩
  | cons first others =>
      have member : first ∈ arguments.given option := by
        rw [occurrences]
        exact List.mem_cons_self
      obtain ⟨text, rfl, allowed⟩ :=
        valid.allowed option first (mem_given_iff.mp member)
      refine ⟨text, ?_, allowed⟩
      rw [valueOrElse?, value?_eq_head?, occurrences]
      rfl

/-- Arguments that pass the checks give a task. -/
theorem Valid.exists_encodeTask_eq_ok
    {grammar : Grammar} {arguments : Arguments}
    (valid : arguments.Valid grammar)
    (takesInput : grammar.takesInput = true) :
    ∃ task, encodeTask arguments = .ok task := by
  obtain ⟨input, onlyInput⟩ :=
    List.length_eq_one_iff.mp (valid.oneInput takesInput)
  obtain ⟨formatName, formatValue, formatAllowed⟩ :=
    valid.exists_valueOrElse?_eq (show ValueOption.format.default?.isSome from rfl)
  obtain ⟨unitName, unitValue, unitAllowed⟩ :=
    valid.exists_valueOrElse?_eq
      (show ValueOption.encoding.default?.isSome from rfl)
  obtain ⟨limitText, limitValue, limitAllowed⟩ :=
    valid.exists_valueOrElse?_eq
      (show ValueOption.inferenceLimit.default?.isSome from rfl)
  obtain ⟨format, formatRead⟩ := Option.isSome_iff_exists.mp formatAllowed
  obtain ⟨unit, unitRead⟩ := Option.isSome_iff_exists.mp unitAllowed
  obtain ⟨limit, limitRead⟩ := Option.isSome_iff_exists.mp limitAllowed
  have inputRead : arguments.input? = some input := by
    rw [input?_eq_head?_inputs, onlyInput, List.head?_cons]
  exact
    ⟨_, Arguments.encodeTask_eq_ok inputRead
      (by rw [formatValue]; exact formatRead)
      (by rw [unitValue]; exact unitRead)
      (by rw [limitValue]; exact limitRead)⟩

theorem AskFor.encodeTask_eq_ok
    {arguments : Arguments} {task : EncodeTask}
    (asks : arguments.AskFor task)
    (inRange : task.inferenceLimit < UInt64.size) :
    encodeTask arguments = .ok task := by
  obtain ⟨format, rfl, formatValue⟩ := asks.format.exists_valueOrElse?_eq
  obtain ⟨unit, rfl, unitValue⟩ := asks.unit.exists_valueOrElse?_eq
  obtain ⟨limit, writes, limitValue⟩ := asks.limit.exists_valueOrElse?_eq
  have inputRead : arguments.input? = some task.input := by
    rw [input?_eq_head?_inputs, asks.input, List.head?_cons]
  have limitRead :
      (arguments.valueOrElse? none .inferenceLimit).bind
          (readLimit? ·.toList) =
        some task.inferenceLimit := by
    rw [limitValue]
    exact readLimit?_of_writesLimit inRange writes
  have sourceRead : arguments.valueOrElse? none .source = task.source := by
    cases source : task.source with
    | none =>
        exact valueOrElse?_of_left_out (by rw [asks.source, source]; rfl)
    | some path =>
        exact valueOrElse?_of_given (by rw [asks.source, source]; rfl)
  have orderRead : (!arguments.contains .noSort) = task.sortsByPosition := by
    have counted := asks.noSort
    cases sorts : task.sortsByPosition with
    | true =>
        rw [sorts, if_pos rfl, List.count_eq_zero] at counted
        rw [Bool.not_eq_true', ← Bool.not_eq_true, List.contains_iff_mem]
        exact counted
    | false =>
        rw [sorts, if_neg Bool.false_ne_true] at counted
        rw [Bool.not_eq_false', List.contains_iff_mem, ← List.count_pos_iff,
          counted]
        exact Nat.one_pos
  rw [Arguments.encodeTask_eq_ok inputRead
    (by rw [formatValue]; exact task.format.ofName?_name)
    (by rw [unitValue]; exact task.unit.ofName?_name) limitRead, sourceRead,
    orderRead]

theorem Gives.length_given_le
    {arguments : Arguments} {option : ValueOption} {means : String → Prop}
    (gives : arguments.Gives option means) :
    (arguments.given option).length ≤ 1 := by
  obtain ⟨value, _, given | ⟨leftOut, _⟩⟩ := gives
  · exact Nat.le_of_eq (congrArg List.length given)
  · rw [leftOut, List.length_nil]
    exact Nat.zero_le 1

theorem Gives.exists_of_mem
    {arguments : Arguments} {option : ValueOption} {means : String → Prop}
    (gives : arguments.Gives option means) {occurrence : Option String}
    (member : occurrence ∈ arguments.given option) :
    ∃ value, occurrence = some value ∧ means value := by
  obtain ⟨value, meant, given | ⟨leftOut, _⟩⟩ := gives
  · rw [given, List.mem_singleton] at member
    exact ⟨value, member, meant⟩
  · rw [leftOut] at member
    cases member

/-- What asks for a task passes every check. -/
theorem AskFor.wellFormed
    {arguments : Arguments} {task : EncodeTask}
    (asks : arguments.AskFor task)
    (inRange : task.inferenceLimit < UInt64.size) :
    arguments.WellFormed .encodeAlone where
  taken := by
    intro item member
    cases item with
    | valued option value =>
        have occurs := mem_given_iff.mpr member
        cases option with
        | logLevel =>
            rw [asks.noLevel] at occurs
            cases occurs
        | _ =>
            change _ ∈ Grammar.encodeAlone.options
            decide
    | noSort =>
        rfl
    | input path =>
        exact ⟨rfl, rfl⟩
  oneInput := by
    intro _
    rw [asks.input, List.length_singleton]
  allowed := by
    intro option value member
    have occurs := mem_given_iff.mpr member
    cases option with
    | logLevel =>
        rw [asks.noLevel] at occurs
        cases occurs
    | format =>
        obtain ⟨text, rfl, rfl⟩ := asks.format.exists_of_mem occurs
        refine ⟨_, rfl, ?_⟩
        rw [ValueOption.allows, task.format.ofName?_name, Option.isSome_some]
    | encoding =>
        obtain ⟨text, rfl, rfl⟩ := asks.unit.exists_of_mem occurs
        refine ⟨_, rfl, ?_⟩
        rw [ValueOption.allows, task.unit.ofName?_name, Option.isSome_some]
    | inferenceLimit =>
        obtain ⟨text, rfl, writes⟩ := asks.limit.exists_of_mem occurs
        refine ⟨text, rfl, ?_⟩
        rw [ValueOption.allows, readLimit?_of_writesLimit inRange writes,
          Option.isSome_some]
    | source =>
        rw [asks.source, List.mem_map] at occurs
        obtain ⟨path, _, rfl⟩ := occurs
        exact ⟨path, rfl, rfl⟩
  once := by
    intro option
    cases option with
    | logLevel =>
        rw [asks.noLevel]
        exact Nat.zero_le 1
    | format =>
        exact asks.format.length_given_le
    | encoding =>
        exact asks.unit.length_given_le
    | inferenceLimit =>
        exact asks.limit.length_given_le
    | source =>
        rw [asks.source, List.length_map]
        exact Option.length_toList_le
  noSortOnce := by
    rw [asks.noSort]
    split <;> decide

end Arguments

/-! ## Words that ask for a task -/

theorem parseEncode_of_scan
    {words : List String} {arguments : Arguments}
    (read : scan .encodeAlone words = .ok ⟨arguments, none, none⟩)
    (wellFormed : arguments.WellFormed .encodeAlone) :
    parseEncode words = encodeTask arguments := by
  have checked :
      Scanned.check .encodeAlone none ⟨arguments, none, none⟩ = .ok arguments :=
    wellFormed.check_eq_ok Arguments.allowsEnvironment_none none
  rw [parseEncode, read]
  change (Scanned.check .encodeAlone none ⟨arguments, none, none⟩ >>=
    encodeTask) = _
  rw [checked]
  rfl

/-- However a task is asked for, in whatever order and notation, the words are read as
this task. -/
theorem parseEncode_eq_ok_of_askFor
    {task : EncodeTask} {arguments : Arguments} {words : List String}
    (inRange : task.inferenceLimit < UInt64.size)
    (asks : arguments.AskFor task)
    (written : arguments.WrittenToEnd words) :
    parseEncode words = .ok task := by
  have wellFormed := asks.wellFormed inRange
  have read := wellFormed.scan_eq_ok written rfl rfl
  rw [parseEncode_of_scan read wellFormed, asks.encodeTask_eq_ok inRange]

/-- The largest limit, with a sign and leading zeros, a source with an equals sign,
and an input that looks like an option. -/
theorem parseEncode_eq_ok_of_largest_limit :
    let task : EncodeTask :=
      { input := "--no-sort"
        format := .pretty
        unit := .utf32
        sortsByPosition := false
        inferenceLimit := 18446744073709551615
        source := some "a=b.py" }
    let words :=
      ["--inference-limit=+0018446744073709551615", "--source", "a=b.py",
        "--no-sort", "--format=pretty", "--", "--no-sort"]
    task.inferenceLimit < UInt64.size ∧ parseEncode words = .ok task := by
  intro task words
  have inRange : task.inferenceLimit < UInt64.size := by
    decide
  let options : Arguments :=
    [.valued .inferenceLimit (some "+0018446744073709551615"),
      .valued .source (some "a=b.py"), .noSort,
      .valued .format (some "pretty")]
  have asks : Arguments.AskFor (options ++ ["--no-sort"].map .input) task :=
    { input := by rfl
      format := ⟨"pretty", rfl, Or.inl rfl⟩
      unit := ⟨"utf-32", rfl, Or.inr ⟨rfl, rfl⟩⟩
      limit := ⟨"+0018446744073709551615", ⟨2, Or.inr (by decide)⟩, Or.inl rfl⟩
      source := by rfl
      noSort := by rfl
      noLevel := by rfl }
  have limit :
      Item.WrittenAs (.valued .inferenceLimit (some "+0018446744073709551615"))
        ["--inference-limit=+0018446744073709551615"] :=
    @Item.WrittenAs.joined .inferenceLimit "+0018446744073709551615"
      "+0018446744073709551615" rfl
  have source :
      Item.WrittenAs (.valued .source (some "a=b.py")) ["--source", "a=b.py"] :=
    @Item.WrittenAs.apart .source "a=b.py" (by decide)
  have format :
      Item.WrittenAs (.valued .format (some "pretty")) ["--format=pretty"] :=
    @Item.WrittenAs.joined .format "pretty" "pretty" rfl
  have written :
      Arguments.WrittenToEnd (options ++ ["--no-sort"].map .input) words :=
    .separated
      (.cons limit (.cons source (.cons .noSort (.cons format .nil))))
      ["--no-sort"]
  exact ⟨inRange, parseEncode_eq_ok_of_askFor inRange asks written⟩

end SemanticTokens
