import SemanticTokens.Proofs.Command.Written

/-!
# Arguments that pass the checks

What the checks see of arguments is, for every option, what its occurrences give to
it, in order, and how often the flag occurs.  The order of different options among
each other, and the place of the input between them, play no part.

Arguments whose options all have a value that they allow fail for one reason only,
that one of them is repeated.
-/

namespace SemanticTokens

namespace Item

def given? (option : ValueOption) : Item → Option (Option String)
  | .valued given value => if given = option then some value else none
  | _ => none

theorem isOption_eq_isSome_given?
    (option : ValueOption) (item : Item) :
    item.isOption option = (item.given? option).isSome := by
  cases item with
  | valued given value =>
      by_cases same : given = option
      · simp [isOption, given?, same]
      · simp [isOption, given?, same]
  | noSort =>
      rfl
  | input path =>
      rfl

theorem value?_eq_bind_given?
    (option : ValueOption) (item : Item) :
    item.value? option = (item.given? option).bind id := by
  cases item with
  | valued given value =>
      by_cases same : given = option
      · simp [value?, given?, same]
      · simp [value?, given?, same]
  | noSort =>
      rfl
  | input path =>
      rfl

end Item

namespace Arguments

/-! ## What the checks see -/

def given (arguments : Arguments) (option : ValueOption) : List (Option String) :=
  arguments.filterMap (Item.given? option)

theorem given_append
    (left right : Arguments) (option : ValueOption) :
    given (left ++ right) option = left.given option ++ right.given option :=
  List.filterMap_append

theorem mem_given_iff
    {arguments : Arguments} {option : ValueOption} {value : Option String} :
    value ∈ arguments.given option ↔ .valued option value ∈ arguments := by
  rw [given, List.mem_filterMap]
  constructor
  · rintro ⟨item, member, gives⟩
    cases item with
    | valued other given =>
        by_cases same : other = option
        · rw [Item.given?, if_pos same, Option.some.injEq] at gives
          rwa [← same, ← gives]
        · rw [Item.given?, if_neg same] at gives
          cases gives
    | noSort =>
        cases gives
    | input path =>
        cases gives
  · intro member
    exact ⟨.valued option value, member, by rw [Item.given?, if_pos rfl]⟩

theorem count_eq_length_given
    (arguments : Arguments) (option : ValueOption) :
    arguments.count option = (arguments.given option).length := by
  simp only [count, given, List.length_filterMap_eq_countP,
    ← Item.isOption_eq_isSome_given?]

theorem filterMap_value?_eq
    (arguments : Arguments) (option : ValueOption) :
    arguments.filterMap (Item.value? option) =
      (arguments.given option).filterMap id := by
  rw [given, List.filterMap_filterMap]
  simp only [← Item.value?_eq_bind_given?]

theorem value?_eq_head?
    (arguments : Arguments) (option : ValueOption) :
    arguments.value? option =
      ((arguments.given option).filterMap id).head? := by
  rw [value?, ← filterMap_value?_eq, List.head?_filterMap]

theorem has_eq_true_iff
    (arguments : Arguments) (option : ValueOption) :
    arguments.has option = true ↔ arguments.given option ≠ [] := by
  rw [has, List.any_eq_true, ← List.length_pos_iff, given,
    List.length_filterMap_eq_countP, List.countP_pos_iff]
  simp only [← Item.isOption_eq_isSome_given?]

theorem has_congr
    {left right : Arguments} {option : ValueOption}
    (same : left.given option = right.given option) :
    left.has option = right.has option := by
  rw [Bool.eq_iff_iff, has_eq_true_iff, has_eq_true_iff, same]

theorem fault?_congr
    {left right : Arguments} {option : ValueOption}
    (same : left.given option = right.given option)
    (environment : Option String) :
    left.fault? environment option = right.fault? environment option := by
  rw [fault?, fault?, lacksValue, lacksValue, has_congr same, values, values,
    filterMap_value?_eq, filterMap_value?_eq, value?_eq_head?,
    value?_eq_head?, count_eq_length_given, count_eq_length_given, same]

theorem given_singleton_self
    (option : ValueOption) (value : Option String) :
    given [.valued option value] option = [value] := by
  have occurs : Item.given? option (.valued option value) = some value :=
    if_pos rfl
  rw [given, List.filterMap_cons_some occurs, List.filterMap_nil]

theorem contains_noSort_congr
    {left right : Arguments}
    (same : List.count .noSort left = List.count .noSort right) :
    left.contains .noSort = right.contains .noSort := by
  rw [Bool.eq_iff_iff, List.contains_iff_mem, List.contains_iff_mem,
    ← List.count_pos_iff, ← List.count_pos_iff, same]

section Insertion

variable {first second added : Arguments}

theorem mem_insert_iff
    {item : Item} :
    item ∈ first ++ added ++ second ↔
      item ∈ first ++ second ∨ item ∈ added := by
  rw [List.mem_append, List.mem_append, List.mem_append, or_right_comm]

theorem given_insert_eq
    {option : ValueOption} (notGiven : added.given option = []) :
    given (first ++ added ++ second) option =
      given (first ++ second) option := by
  rw [given_append, given_append, given_append, notGiven, List.append_nil]

theorem inputs_insert_eq
    (noInput : added.inputs = []) :
    inputs (first ++ added ++ second) = inputs (first ++ second) := by
  rw [inputs_append, inputs_append, inputs_append, noInput, List.append_nil]

theorem count_noSort_insert_eq
    (noFlag : .noSort ∉ added) :
    List.count .noSort (first ++ added ++ second) =
      List.count .noSort (first ++ second) := by
  rw [List.count_append, List.count_append, List.count_append,
    List.count_eq_zero.mpr noFlag, Nat.add_zero]

end Insertion

/-! ## Arguments with values that are allowed -/

/-- Arguments of a place, with a value that its option allows in each occurrence, and
with one input where an input is taken. -/
structure Valid (grammar : Grammar) (arguments : Arguments) : Prop where
  taken : ∀ item ∈ arguments, grammar.Takes item
  oneInput : grammar.takesInput = true → arguments.inputs.length = 1
  allowed :
    ∀ option value, .valued option value ∈ arguments →
      ∃ text, value = some text ∧ option.allows text = true

/-- Valid arguments without a repeated option or flag. -/
structure WellFormed (grammar : Grammar) (arguments : Arguments) : Prop
    extends Valid grammar arguments where
  once : ∀ option, (arguments.given option).length ≤ 1
  noSortOnce : List.count .noSort arguments ≤ 1

/-- Further arguments that are no inputs, with values that are allowed, keep valid
arguments valid wherever they are added. -/
theorem Valid.insert
    {grammar : Grammar} {first second added : Arguments}
    (valid : Valid grammar (first ++ second))
    (taken : ∀ item ∈ added, grammar.Takes item)
    (noInput : added.inputs = [])
    (allowed :
      ∀ option value, .valued option value ∈ added →
        ∃ text, value = some text ∧ option.allows text = true) :
    Valid grammar (first ++ added ++ second) := by
  constructor
  · intro item member
    rcases mem_insert_iff.mp member with old | new
    · exact valid.taken item old
    · exact taken item new
  · intro takesInput
    rw [inputs_insert_eq noInput]
    exact valid.oneInput takesInput
  · intro option value member
    rcases mem_insert_iff.mp member with old | new
    · exact valid.allowed option value old
    · exact allowed option value new

/-- What is valid for the encoding command alone is valid within the program. -/
theorem Valid.encode
    {arguments : Arguments} (valid : arguments.Valid .encodeAlone) :
    arguments.Valid .encode where
  taken := by
    intro item member
    have taken := valid.taken item member
    cases item with
    | valued option value =>
        exact List.mem_cons_of_mem _ taken
    | noSort =>
        exact taken
    | input path =>
        exact taken
  oneInput := valid.oneInput
  allowed := valid.allowed

theorem WellFormed.encode
    {arguments : Arguments} (wellFormed : arguments.WellFormed .encodeAlone) :
    arguments.WellFormed .encode :=
  ⟨wellFormed.toValid.encode, wellFormed.once, wellFormed.noSortOnce⟩

/-- The words of valid arguments are read to their end. -/
theorem Valid.scan_eq_ok
    {grammar : Grammar} {arguments : Arguments} {words : List String}
    (valid : arguments.Valid grammar)
    (written : arguments.WrittenToEnd words)
    (takesInput : grammar.takesInput = true)
    (noCommand : grammar.takesCommand = false) :
    scan grammar words = .ok ⟨arguments, none, none⟩ := by
  rw [scan_writtenToEnd written valid.taken takesInput noCommand,
    valid.oneInput takesInput, if_pos (Nat.le_refl 1)]

/-- Whether an environment holds no log level or one that there is. -/
def AllowsEnvironment (environment : Option String) : Prop :=
  ∀ text, environment = some text → ValueOption.logLevel.allows text = true

theorem allowsEnvironment_none : AllowsEnvironment none := by
  intro text surrounding
  cases surrounding

section Checks

variable {grammar : Grammar} {arguments : Arguments} {environment : Option String}

theorem Valid.lacksValue_eq_false
    (valid : arguments.Valid grammar) (option : ValueOption) :
    arguments.lacksValue option = false := by
  rw [lacksValue]
  cases occurrences : arguments.given option with
  | nil =>
      have absent : arguments.has option = false := by
        rw [← Bool.not_eq_true, has_eq_true_iff, occurrences]
        exact fun present => present rfl
      rw [absent, Bool.false_and, Bool.false_and]
  | cons first others =>
      have member : first ∈ arguments.given option := by
        rw [occurrences]
        exact List.mem_cons_self
      obtain ⟨text, rfl, _⟩ :=
        valid.allowed option first (mem_given_iff.mp member)
      rw [value?_eq_head?, occurrences]
      simp

/-- The values that an option is checked with are those given to it and, for the log
level, that of the environment. -/
theorem Valid.allows_of_mem_values
    (valid : arguments.Valid grammar) {option : ValueOption} {value : String}
    (member : value ∈ arguments.values environment option)
    (tolerated :
      option.takesEnvironment = true → environment = some value →
        option.allows value = true) :
    option.allows value = true := by
  rw [values, filterMap_value?_eq, List.mem_append] at member
  rcases member with given | surrounding
  · rw [List.mem_filterMap] at given
    obtain ⟨occurrence, given, rfl⟩ := given
    obtain ⟨text, same, allowed⟩ :=
      valid.allowed option (some value) (mem_given_iff.mp given)
    rwa [Option.some.inj same]
  · split at surrounding
    · exact tolerated ‹_› (Option.mem_toList.mp surrounding)
    · cases surrounding

theorem Valid.fault?_eq
    (valid : arguments.Valid grammar) {option : ValueOption}
    (tolerated :
      option.takesEnvironment = true → AllowsEnvironment environment) :
    arguments.fault? environment option =
      if 1 < (arguments.given option).length then some .repeatedArgument
      else none := by
  have noneRefused :
      (arguments.values environment option).any (!option.allows ·) = false := by
    rw [← Bool.not_eq_true, List.any_eq_true]
    rintro ⟨value, member, refused⟩
    have allowed : option.allows value = true := by
      apply valid.allows_of_mem_values member
      intro takes surrounding
      have allowedLevel := tolerated takes value surrounding
      cases option with
      | logLevel =>
          exact allowedLevel
      | _ =>
          cases takes
    rw [allowed] at refused
    cases refused
  rw [fault?, valid.lacksValue_eq_false, noneRefused, count_eq_length_given,
    if_neg Bool.false_ne_true, if_neg Bool.false_ne_true]

theorem no_input_missing
    (oneInput : grammar.takesInput = true → arguments.inputs.length = 1) :
    (grammar.takesInput && arguments.input?.isNone) = false := by
  cases takes : grammar.takesInput with
  | false =>
      rfl
  | true =>
      have counted := oneInput takes
      rw [input?_eq_head?_inputs]
      cases found : arguments.inputs with
      | nil =>
          rw [found] at counted
          cases counted
      | cons path others =>
          rfl

theorem check_of_fault
    (oneInput : grammar.takesInput = true → arguments.inputs.length = 1)
    {stop : ParseStop}
    (fault :
      grammar.options.findSome? (arguments.fault? environment) = some stop)
    (command : Option (String × List String)) :
    Scanned.check grammar environment ⟨arguments, none, command⟩ =
      .error stop := by
  simp only [Scanned.check, no_input_missing oneInput, Option.any_none, fault,
    Bool.false_eq_true, if_false]

theorem check_of_no_fault
    (oneInput : grammar.takesInput = true → arguments.inputs.length = 1)
    (noFault :
      grammar.options.findSome? (arguments.fault? environment) = none)
    (command : Option (String × List String)) :
    Scanned.check grammar environment ⟨arguments, none, command⟩ =
      if 1 < List.count .noSort arguments then .error .repeatedArgument
      else .ok arguments := by
  simp only [Scanned.check, no_input_missing oneInput, Option.any_none, noFault,
    Bool.false_eq_true, if_false]

/-- Where one option is at fault and no other one is, the check finds this fault. -/
theorem check_of_only_fault
    (oneInput : grammar.takesInput = true → arguments.inputs.length = 1)
    {option : ValueOption} (known : option ∈ grammar.options)
    {stop : ParseStop} (fault : arguments.fault? environment option = some stop)
    (noOther :
      ∀ other, other ≠ option → arguments.fault? environment other = none)
    (command : Option (String × List String)) :
    Scanned.check grammar environment ⟨arguments, none, command⟩ =
      .error stop := by
  cases first : grammar.options.findSome? (arguments.fault? environment) with
  | none =>
      rw [List.findSome?_eq_none_iff] at first
      have noFault := first option known
      rw [fault] at noFault
      cases noFault
  | some found =>
      obtain ⟨other, _, otherFault⟩ := List.exists_of_findSome?_eq_some first
      by_cases same : other = option
      · rw [same, fault] at otherFault
        cases otherFault
        exact check_of_fault oneInput first command
      · rw [noOther other same] at otherFault
        cases otherFault

theorem WellFormed.check_eq_ok
    (wellFormed : arguments.WellFormed grammar)
    (allowed : AllowsEnvironment environment)
    (command : Option (String × List String)) :
    Scanned.check grammar environment ⟨arguments, none, command⟩ =
      .ok arguments := by
  have noFault :
      grammar.options.findSome? (arguments.fault? environment) = none := by
    rw [List.findSome?_eq_none_iff]
    intro option _
    rw [wellFormed.fault?_eq fun _ => allowed,
      if_neg (Nat.not_lt.mpr (wellFormed.once option))]
  rw [check_of_no_fault wellFormed.oneInput noFault,
    if_neg (Nat.not_lt.mpr wellFormed.noSortOnce)]

/-- All that can be wrong with valid arguments is a repetition. -/
theorem Valid.check_eq_error
    (valid : arguments.Valid grammar)
    (allowed : AllowsEnvironment environment)
    (repeated :
      (∃ option, 1 < (arguments.given option).length) ∨
        1 < List.count .noSort arguments)
    (command : Option (String × List String)) :
    Scanned.check grammar environment ⟨arguments, none, command⟩ =
      .error .repeatedArgument := by
  have fault (option : ValueOption) :
      arguments.fault? environment option =
        if 1 < (arguments.given option).length then some .repeatedArgument
        else none :=
    valid.fault?_eq fun _ => allowed
  cases first : grammar.options.findSome? (arguments.fault? environment) with
  | some stop =>
      obtain ⟨option, _, found⟩ := List.exists_of_findSome?_eq_some first
      rw [fault option] at found
      split at found
      · cases found
        exact check_of_fault valid.oneInput first command
      · cases found
  | none =>
      rcases repeated with ⟨option, twice⟩ | twice
      · rw [List.findSome?_eq_none_iff] at first
        obtain ⟨value, member⟩ :=
          List.exists_mem_of_length_pos (Nat.lt_of_succ_lt twice)
        have known : option ∈ grammar.options :=
          valid.taken (.valued option value) (mem_given_iff.mp member)
        have noFault := first option known
        rw [fault option, if_pos twice] at noFault
        cases noFault
      · rw [check_of_no_fault valid.oneInput first, if_pos twice]

/-- A log level of the environment that there is not is refused, whatever level the
arguments give. -/
theorem WellFormed.check_eq_error_of_environment
    (wellFormed : arguments.WellFormed grammar)
    (takesLevel : .logLevel ∈ grammar.options) {text : String}
    (unknown : ValueOption.logLevel.allows text = false)
    (command : Option (String × List String)) :
    Scanned.check grammar (some text) ⟨arguments, none, command⟩ =
      .error .invalidValue := by
  have levelFault :
      arguments.fault? (some text) .logLevel = some .invalidValue := by
    have refused :
        (arguments.values (some text) .logLevel).any
            (!ValueOption.logLevel.allows ·) = true := by
      rw [List.any_eq_true]
      refine ⟨text, ?_, by rw [unknown, Bool.not_false]⟩
      rw [values, List.mem_append]
      exact Or.inr List.mem_cons_self
    rw [fault?, wellFormed.lacksValue_eq_false, refused,
      if_neg Bool.false_ne_true, if_pos rfl]
    rfl
  have onlyLevel (option : ValueOption) (differs : option ≠ .logLevel) :
      arguments.fault? (some text) option = none := by
    have noEnvironment : option.takesEnvironment ≠ true := by
      cases option with
      | logLevel =>
          exact absurd rfl differs
      | _ =>
          exact Bool.false_ne_true
    rw [wellFormed.fault?_eq fun takes => absurd takes noEnvironment,
      if_neg (Nat.not_lt.mpr (wellFormed.once option))]
  exact
    check_of_only_fault wellFormed.oneInput takesLevel levelFault onlyLevel
      command

end Checks

end Arguments

end SemanticTokens
