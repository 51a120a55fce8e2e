import Mathlib.Data.Nat.Digits.Defs
import SemanticTokens.Proofs.Command.ChosenLevel
import SemanticTokens.Proofs.Command.Repetitions

/-!
# Which limits are accepted

A limit is written in decimal digits, with a plus sign in front of them if one
likes, and has to be below `2 ^ 64`.  How many digits there are makes no
difference, as leading zeros do not count.  Everything else is refused, the
empty text and a lone sign included.

A limit may be added to well-formed arguments wherever an argument may stand.
It changes nothing in the task but the limit, and a text that is no limit is
found by the check of its own option and by no other one.
-/

namespace SemanticTokens

def digitWorth (digit : Char) : Nat :=
  digit.toNat - '0'.toNat

/-- Whether a text is decimal digits of a number, after a plus sign if one likes. -/
def DenotesLimit (text : String) (limit : Nat) : Prop :=
  ∃ digits : List Char,
    (text.toList = digits ∨ text.toList = '+' :: digits) ∧
      digits ≠ [] ∧
      (∀ digit ∈ digits, '0' ≤ digit ∧ digit ≤ '9') ∧
      Nat.ofDigits 10 (digits.map digitWorth).reverse = limit

/-- Whether a reading with a further text for the limit ends as the text says: with
the limit that the text denotes, if it is below `2 ^ 64`, and with a refusal of the
limit otherwise. -/
structure EndsByLimit
    {α : Type} (text : String) (withLimit : Nat → α)
    (result : Except ParseStop α) : Prop where
  accepted :
    ∀ value,
      result = .ok value ↔
        ∃ limit,
          DenotesLimit text limit ∧ limit < UInt64.size ∧
            value = withLimit limit
  refused :
    (¬ ∃ limit, DenotesLimit text limit ∧ limit < UInt64.size) →
      result = .error .invalidLimit

/-! ## Reading a limit -/

theorem isDigit_iff
    (character : Char) :
    character.isDigit = true ↔ '0' ≤ character ∧ character ≤ '9' := by
  simp [Char.isDigit, Char.le_def]

theorem ofDigitChars_ten_eq_ofDigits
    (digits : List Char) :
    Nat.ofDigitChars 10 digits 0 =
      Nat.ofDigits 10 (digits.map digitWorth).reverse := by
  rw [Nat.ofDigits_eq_foldr, List.foldr_reverse, List.foldl_map,
    Nat.ofDigitChars_eq_foldl]
  simp only [digitWorth, Nat.add_comm, Nat.cast_id]

/-- What is read as a limit are digits, behind a sign or not. -/
theorem exists_digits_of_readLimit?
    {text : List Char} {limit : Nat} (read : readLimit? text = some limit) :
    ∃ digits,
      (text = digits ∨ text = '+' :: digits) ∧ digits ≠ [] ∧
        ∀ digit ∈ digits, digit.isDigit = true := by
  have found (digits : List Char)
      (given :
        (if digits.isEmpty || !digits.all Char.isDigit then none
          else
            if Nat.ofDigitChars 10 digits 0 < UInt64.size then
              some (Nat.ofDigitChars 10 digits 0)
            else none) =
          some limit) :
      digits ≠ [] ∧ ∀ digit ∈ digits, digit.isDigit = true := by
    by_cases malformed : (digits.isEmpty || !digits.all Char.isDigit) = true
    · rw [if_pos malformed] at given
      cases given
    · simpa using malformed
  unfold readLimit? at read
  dsimp only at read
  split at read
  · rename_i digits
    exact ⟨digits, Or.inr rfl, found digits read⟩
  · exact ⟨text, Or.inl rfl, found text read⟩

theorem readLimit?_eq_some_iff
    {text : String} {limit : Nat} :
    readLimit? text.toList = some limit ↔
      DenotesLimit text limit ∧ limit < UInt64.size := by
  have read {digits : List Char}
      (forms : text.toList = digits ∨ text.toList = '+' :: digits)
      (nonempty : digits ≠ [])
      (areDigits : ∀ digit ∈ digits, digit.isDigit = true) :
      readLimit? text.toList =
        if Nat.ofDigits 10 (digits.map digitWorth).reverse < UInt64.size then
          some (Nat.ofDigits 10 (digits.map digitWorth).reverse)
        else none := by
    have unsigned := readLimit?_of_digits nonempty areDigits
    rw [ofDigitChars_ten_eq_ofDigits] at unsigned
    rcases forms with form | form
    · rw [form, unsigned]
    · rw [form, readLimit?_plus areDigits, unsigned]
  constructor
  · intro isLimit
    obtain ⟨digits, forms, nonempty, areDigits⟩ :=
      exists_digits_of_readLimit? isLimit
    rw [read forms nonempty areDigits] at isLimit
    split at isLimit
    · rename_i inRange
      cases isLimit
      refine ⟨⟨digits, forms, nonempty, ?_, rfl⟩, inRange⟩
      intro digit member
      exact (isDigit_iff digit).mp (areDigits digit member)
    · cases isLimit
  · rintro ⟨⟨digits, forms, nonempty, areDigits, rfl⟩, inRange⟩
    rw [read forms nonempty, if_pos inRange]
    intro digit member
    exact (isDigit_iff digit).mpr (areDigits digit member)

/-- A reading ends as a text for the limit says if it does so for what is read from
the text. -/
theorem endsByLimit_of_readLimit?
    {α : Type} {text : String} {withLimit : Nat → α}
    {result : Except ParseStop α}
    (ofSome :
      ∀ limit, readLimit? text.toList = some limit →
        result = .ok (withLimit limit))
    (ofNone :
      readLimit? text.toList = none → result = .error .invalidLimit) :
    EndsByLimit text withLimit result := by
  cases read : readLimit? text.toList with
  | none =>
      have noLimit :
          ¬ ∃ limit, DenotesLimit text limit ∧ limit < UInt64.size := by
        rintro ⟨limit, denotes⟩
        rw [readLimit?_eq_some_iff.mpr denotes] at read
        cases read
      have refused := ofNone read
      constructor
      · intro value
        rw [refused]
        constructor
        · intro accepted
          cases accepted
        · rintro ⟨limit, denotes, inRange, _⟩
          exact (noLimit ⟨limit, denotes, inRange⟩).elim
      · intro _
        exact refused
  | some limit =>
      have isLimit := readLimit?_eq_some_iff.mp read
      constructor
      · intro value
        rw [ofSome limit read, Except.ok.injEq]
        constructor
        · intro same
          exact ⟨limit, isLimit.1, isLimit.2, same.symm⟩
        · rintro ⟨other, denotes, inRange, rfl⟩
          have readOther := readLimit?_eq_some_iff.mpr ⟨denotes, inRange⟩
          rw [Option.some.inj (read.symm.trans readOther)]
      · intro noLimit
        exact (noLimit ⟨limit, isLimit⟩).elim

namespace Arguments

/-! ## One more option -/

section OneMore

variable {grammar : Grammar} {first second : Arguments}
  {option : ValueOption} {value : Option String}

theorem given_insert_of_ne
    {other : ValueOption} (differs : other ≠ option) :
    given (first ++ [.valued option value] ++ second) other =
      given (first ++ second) other := by
  have noOccurrence : Item.given? other (.valued option value) = none :=
    if_neg differs.symm
  apply given_insert_eq
  rw [given, List.filterMap_cons_none noOccurrence, List.filterMap_nil]

theorem given_insert_self
    (absent : given (first ++ second) option = []) :
    given (first ++ [.valued option value] ++ second) option = [value] := by
  rw [given_append, List.append_eq_nil_iff] at absent
  rw [given_append, given_append, absent.1, absent.2, given_singleton_self,
    List.nil_append, List.append_nil]

theorem inputs_insert :
    inputs (first ++ [.valued option value] ++ second) =
      inputs (first ++ second) :=
  inputs_insert_eq rfl

theorem count_noSort_insert :
    List.count .noSort (first ++ [.valued option value] ++ second) =
      List.count .noSort (first ++ second) := by
  apply count_noSort_insert_eq
  rw [List.mem_singleton]
  exact nofun

theorem WellFormed.insert
    (wellFormed : WellFormed grammar (first ++ second))
    (known : option ∈ grammar.options)
    (absent : given (first ++ second) option = [])
    {text : String} (isAllowed : option.allows text = true) :
    WellFormed grammar (first ++ [.valued option (some text)] ++ second) where
  toValid := by
    apply wellFormed.toValid.insert
    · intro item member
      rw [List.mem_singleton.mp member]
      exact known
    · rfl
    · intro other value member
      cases List.mem_singleton.mp member
      exact ⟨text, rfl, isAllowed⟩
  once := by
    intro other
    by_cases same : other = option
    · rw [same, given_insert_self absent]
      exact Nat.le_refl 1
    · rw [given_insert_of_ne same]
      exact wellFormed.once other
  noSortOnce := by
    rw [count_noSort_insert]
    exact wellFormed.noSortOnce

/-- A value that is not allowed is found by the check of its option. -/
theorem WellFormed.check_insert_eq_error
    (wellFormed : WellFormed grammar (first ++ second))
    (known : option ∈ grammar.options)
    (absent : given (first ++ second) option = [])
    {text : String} (isRefused : option.allows text = false)
    {environment : Option String}
    (allowed : AllowsEnvironment environment)
    (command : Option (String × List String)) :
    Scanned.check grammar environment
        ⟨first ++ [.valued option (some text)] ++ second, none, command⟩ =
      .error option.refusal := by
  have oneInput :
      grammar.takesInput = true →
        (inputs (first ++ [.valued option (some text)] ++ second)).length =
          1 := by
    rw [inputs_insert]
    exact wellFormed.oneInput
  have onlyValue :
      given (first ++ [.valued option (some text)] ++ second) option =
        [some text] :=
    given_insert_self absent
  apply check_of_only_fault oneInput known
  · have hasValue :
        lacksValue (first ++ [.valued option (some text)] ++ second) option =
          false := by
      rw [lacksValue, value?_eq_head?, onlyValue]
      exact Bool.and_false _
    have refused :
        (values (first ++ [.valued option (some text)] ++ second) environment
            option).any (!option.allows ·) = true := by
      rw [List.any_eq_true]
      refine ⟨text, ?_, by rw [isRefused, Bool.not_false]⟩
      rw [values, filterMap_value?_eq, onlyValue]
      exact List.mem_append_left _ List.mem_cons_self
    rw [fault?, hasValue, refused, if_neg Bool.false_ne_true, if_pos rfl]
  · intro other differs
    rw [fault?_congr (given_insert_of_ne differs) environment,
      wellFormed.fault?_eq fun _ => allowed,
      if_neg (Nat.not_lt.mpr (wellFormed.once other))]

/-- A limit that is added changes nothing in the task but the limit. -/
theorem encodeTask_insert_limit
    {task : EncodeTask}
    (asked : encodeTask (first ++ second) = .ok task)
    (absent : given (first ++ second) .inferenceLimit = [])
    {text : String} {limit : Nat}
    (read : readLimit? text.toList = some limit) :
    encodeTask
        (first ++ [.valued .inferenceLimit (some text)] ++ second) =
      .ok { task with inferenceLimit := limit } := by
  obtain ⟨input, format, unit, oldLimit, inputRead, formatRead, unitRead, _,
    rfl⟩ := exists_of_encodeTask asked
  have sameInput :
      input?
          (first ++ [.valued .inferenceLimit (some text)] ++ second) =
        some input := by
    rw [input?_eq_head?_inputs, inputs_insert, ← input?_eq_head?_inputs,
      inputRead]
  have sameValue (option : ValueOption) (differs : option ≠ .inferenceLimit) :
      valueOrElse?
          (first ++ [.valued .inferenceLimit (some text)] ++ second) none
          option =
        valueOrElse? (first ++ second) none option :=
    valueOrElse?_congr (given_insert_of_ne differs) none
  have sameFlag :
      (first ++ [Item.valued .inferenceLimit (some text)] ++ second).contains
          .noSort =
        (first ++ second).contains .noSort :=
    contains_noSort_congr count_noSort_insert
  have newLimit :
      (valueOrElse?
            (first ++ [.valued .inferenceLimit (some text)] ++ second) none
            .inferenceLimit).bind
          (readLimit? ·.toList) =
        some limit := by
    rw [valueOrElse?_of_given (given_insert_self absent)]
    exact read
  rw [encodeTask_eq_ok sameInput
    (by rw [sameValue .format (by decide)]; exact formatRead)
    (by rw [sameValue .encoding (by decide)]; exact unitRead) newLimit,
    sameFlag, sameValue .source (by decide)]

end OneMore

end Arguments

/-! ## Words with one more option -/

theorem scan_with_option
    {grammar : Grammar} {first second : Arguments}
    {before words after : List String} {option : ValueOption} {text : String}
    (takesInput : grammar.takesInput = true)
    (noCommand : grammar.takesCommand = false)
    (valid : Arguments.Valid grammar (first ++ second))
    (known : option ∈ grammar.options)
    (writtenBefore : first.WrittenAs before)
    (written : Item.WrittenAs (.valued option (some text)) words)
    (writtenAfter : second.WrittenToEnd after) :
    scan grammar (before ++ words ++ after) =
      .ok ⟨first ++ [.valued option (some text)] ++ second, none, none⟩ := by
  have taken :
      ∀ item ∈ first ++ [Item.valued option (some text)] ++ second,
        grammar.Takes item := by
    intro item member
    rcases Arguments.mem_insert_iff.mp member with old | new
    · exact valid.taken item old
    · rw [List.mem_singleton.mp new]
      exact known
  rw [scan_writtenToEnd
      ((writtenBefore.append (.singleton written)).append_toEnd writtenAfter)
      taken takesInput noCommand,
    Arguments.inputs_insert, valid.oneInput takesInput,
    if_pos (Nat.le_refl 1)]

section WithLimit

variable {first second : Arguments} {before words after : List String}
  {text : String} {task : EncodeTask}

theorem allows_inferenceLimit_eq
    (text : String) :
    ValueOption.inferenceLimit.allows text =
      (readLimit? text.toList).isSome :=
  rfl

theorem endsByLimit_parseEncode
    (wellFormed : Arguments.WellFormed .encodeAlone (first ++ second))
    (absent : Arguments.given (first ++ second) .inferenceLimit = [])
    (asked : encodeTask (first ++ second) = .ok task)
    (writtenBefore : first.WrittenAs before)
    (written : Item.WrittenAs (.valued .inferenceLimit (some text)) words)
    (writtenAfter : second.WrittenToEnd after) :
    EndsByLimit text (fun limit => { task with inferenceLimit := limit })
      (parseEncode (before ++ words ++ after)) := by
  have known : .inferenceLimit ∈ Grammar.encodeAlone.options := by
    decide
  have scanned :=
    scan_with_option rfl rfl wellFormed.toValid known writtenBefore written
      writtenAfter
  apply endsByLimit_of_readLimit?
  · intro limit read
    have isAllowed : ValueOption.inferenceLimit.allows text = true := by
      rw [allows_inferenceLimit_eq, read, Option.isSome_some]
    rw [parseEncode_of_scan scanned
        (wellFormed.insert known absent isAllowed),
      Arguments.encodeTask_insert_limit asked absent read]
  · intro noLimit
    have isRefused : ValueOption.inferenceLimit.allows text = false := by
      rw [allows_inferenceLimit_eq, noLimit, Option.isSome_none]
    exact
      parseEncode_of_check_error scanned
        (wellFormed.check_insert_eq_error known absent isRefused
          Arguments.allowsEnvironment_none none)

theorem endsByLimit_parse
    {outer : Arguments} {front : List String}
    {environment : Option String} {level : Threshold}
    (outerWellFormed : outer.WellFormed .program)
    (outerWritten : outer.WrittenAs front)
    (wellFormed : Arguments.WellFormed .encode (first ++ second))
    (absent : Arguments.given (first ++ second) .inferenceLimit = [])
    (allowed : Arguments.AllowsEnvironment environment)
    (asked : encodeTask (first ++ second) = .ok task)
    (chosen : threshold outer (first ++ second) environment = .ok level)
    (writtenBefore : first.WrittenAs before)
    (written : Item.WrittenAs (.valued .inferenceLimit (some text)) words)
    (writtenAfter : second.WrittenToEnd after) :
    EndsByLimit text
      (fun limit => ⟨level, .encode { task with inferenceLimit := limit }⟩)
      (parse (front ++ "encode" :: (before ++ words ++ after))
        environment) := by
  have known : .inferenceLimit ∈ Grammar.encode.options := by
    decide
  have outerScanned :=
    scan_written_command outerWritten outerWellFormed.taken rfl
      (show "encode" ∈ commandNames by decide) (before ++ words ++ after)
  have scanned :=
    scan_with_option rfl rfl wellFormed.toValid known writtenBefore written
      writtenAfter
  apply endsByLimit_of_readLimit?
  · intro limit read
    have isAllowed : ValueOption.inferenceLimit.allows text = true := by
      rw [allows_inferenceLimit_eq, read, Option.isSome_some]
    have longer := wellFormed.insert known absent isAllowed
    have sameGiven :
        Arguments.given
            (first ++ [.valued .inferenceLimit (some text)] ++ second)
            .logLevel =
          Arguments.given (first ++ second) .logLevel :=
      Arguments.given_insert_of_ne (by decide)
    have sameLevel := threshold_congr sameGiven outer environment
    exact
      parse_encode_of_checks outerScanned rfl scanned
        (longer.check_eq_ok allowed none)
        (outerWellFormed.check_eq_ok allowed _)
        (Arguments.encodeTask_insert_limit asked absent read)
        (sameLevel.trans chosen)
  · intro noLimit
    have isRefused : ValueOption.inferenceLimit.allows text = false := by
      rw [allows_inferenceLimit_eq, noLimit, Option.isSome_none]
    exact
      parse_encode_of_check_error outerScanned rfl scanned
        (wellFormed.check_insert_eq_error known absent isRefused allowed none)

end WithLimit

/-- Well-formed arguments without a limit ask for a task.  With a text for the limit
among them, before the end of the options, they ask for the task with the limit that
the text denotes, if it is decimal digits of a number below `2 ^ 64`, with a plus sign
or without; any other text is refused as a limit.  Without a log level among the
arguments all this holds of the encoding command alone. -/
theorem parse_encode_takes_exactly_limits
    {outer first second : Arguments}
    {front before words after : List String} {text : String}
    {environment : Option String}
    (outerWellFormed : outer.WellFormed .program)
    (outerWritten : outer.WrittenAs front)
    (wellFormed : Arguments.WellFormed .encode (first ++ second))
    (absent : Arguments.given (first ++ second) .inferenceLimit = [])
    (allowed : Arguments.AllowsEnvironment environment)
    (writtenBefore : first.WrittenAs before)
    (written : Item.WrittenAs (.valued .inferenceLimit (some text)) words)
    (writtenAfter : second.WrittenToEnd after) :
    ∃ level task,
      parse (front ++ "encode" :: (before ++ after)) environment =
          .ok ⟨level, .encode task⟩ ∧
        EndsByLimit text
          (fun limit => ⟨level, .encode { task with inferenceLimit := limit }⟩)
          (parse (front ++ "encode" :: (before ++ words ++ after))
            environment) ∧
        (Arguments.given (first ++ second) .logLevel = [] →
          parseEncode (before ++ after) = .ok task ∧
            EndsByLimit text
              (fun limit => { task with inferenceLimit := limit })
              (parseEncode (before ++ words ++ after))) := by
  obtain ⟨task, asked⟩ := wellFormed.exists_encodeTask_eq_ok rfl
  obtain ⟨level, chosen⟩ :=
    exists_threshold_eq_ok outerWellFormed.toValid wellFormed.toValid allowed
  have writtenShort := writtenBefore.append_toEnd writtenAfter
  refine ⟨level, task, ?_, ?_, ?_⟩
  · exact
      parse_encode_of_checks
        (scan_written_command outerWritten outerWellFormed.taken rfl
          (show "encode" ∈ commandNames by decide) (before ++ after))
        rfl (wellFormed.scan_eq_ok writtenShort rfl rfl)
        (wellFormed.check_eq_ok allowed none)
        (outerWellFormed.check_eq_ok allowed _) asked chosen
  · exact
      endsByLimit_parse outerWellFormed outerWritten wellFormed absent allowed
        asked chosen writtenBefore written writtenAfter
  · intro noLevel
    have alone := wellFormed.encodeAlone noLevel
    constructor
    · rw [parseEncode_of_scan (alone.scan_eq_ok writtenShort rfl rfl) alone,
        asked]
    · exact
        endsByLimit_parseEncode alone absent asked writtenBefore written
          writtenAfter

/-- The largest limit, with a sign and a leading zero, and the number after it, between
an input and the flag. -/
theorem parse_encode_takes_largest_limit_only :
    let task : EncodeTask := { input := "a.json", sortsByPosition := false }
    Arguments.WellFormed .encode ([.input "a.json"] ++ [.noSort]) ∧
      DenotesLimit "+018446744073709551615" 18446744073709551615 ∧
      parse
          ["encode", "a.json", "--inference-limit", "+018446744073709551615",
            "--no-sort"]
          (some "info") =
        .ok ⟨.upTo .info,
          .encode { task with inferenceLimit := 18446744073709551615 }⟩ ∧
      parseEncode
          ["a.json", "--inference-limit", "18446744073709551616",
            "--no-sort"] =
        .error .invalidLimit := by
  intro task
  have asks : Arguments.AskFor ([.input "a.json"] ++ [.noSort]) task :=
    { input := by rfl
      format := ⟨"json", rfl, Or.inr ⟨rfl, rfl⟩⟩
      unit := ⟨"utf-32", rfl, Or.inr ⟨rfl, rfl⟩⟩
      limit := ⟨"4", ⟨0, Or.inl (by decide)⟩, Or.inr ⟨rfl, rfl⟩⟩
      source := by rfl
      noSort := by rfl
      noLevel := by rfl }
  have wellFormed :
      Arguments.WellFormed .encode ([.input "a.json"] ++ [.noSort]) :=
    (asks.wellFormed (by decide)).encode
  have input : Arguments.WrittenAs [.input "a.json"] ["a.json"] :=
    .singleton (.input (by decide))
  have flag : Arguments.WrittenToEnd [.noSort] ["--no-sort"] :=
    .unseparated (.singleton .noSort)
  have largest :
      Item.WrittenAs
        (.valued .inferenceLimit (some "+018446744073709551615"))
        ["--inference-limit", "+018446744073709551615"] :=
    @Item.WrittenAs.apart .inferenceLimit "+018446744073709551615"
      (by decide)
  have larger :
      Item.WrittenAs (.valued .inferenceLimit (some "18446744073709551616"))
        ["--inference-limit", "18446744073709551616"] :=
    @Item.WrittenAs.apart .inferenceLimit "18446744073709551616" (by decide)
  have largestRead :
      readLimit? "+018446744073709551615".toList =
        some 18446744073709551615 := by
    decide
  have largerRead : readLimit? "18446744073709551616".toList = none := by
    decide
  have denotes := (readLimit?_eq_some_iff.mp largestRead).1
  have info : Arguments.AllowsEnvironment (some "info") :=
    allowsEnvironment_name (some (.upTo .info))
  refine ⟨wellFormed, denotes, ?_, ?_⟩
  · obtain ⟨level, found, short, ends, _⟩ :=
      @parse_encode_takes_exactly_limits [] [.input "a.json"] [.noSort] []
        ["a.json"] ["--inference-limit", "+018446744073709551615"]
        ["--no-sort"] "+018446744073709551615" (some "info")
        (Arguments.wellFormed_ofLevel none) .nil wellFormed rfl info input
        largest flag
    have same :
        (⟨level, .encode found⟩ : Invocation) = ⟨.upTo .info, .encode task⟩ :=
      Except.ok.inj (short.symm.trans (by rfl))
    cases same
    exact (ends.accepted _).mpr ⟨_, denotes, by decide, rfl⟩
  · obtain ⟨_, _, _, _, byItself⟩ :=
      @parse_encode_takes_exactly_limits [] [.input "a.json"] [.noSort] []
        ["a.json"] ["--inference-limit", "18446744073709551616"]
        ["--no-sort"] "18446744073709551616" none
        (Arguments.wellFormed_ofLevel none) .nil wellFormed rfl
        Arguments.allowsEnvironment_none input larger flag
    apply (byItself asks.noLevel).2.refused
    intro hasLimit
    obtain ⟨limit, isLimit⟩ := hasLimit
    rw [readLimit?_eq_some_iff.mpr isLimit] at largerRead
    cases largerRead

end SemanticTokens
