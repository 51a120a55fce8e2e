import SemanticTokens.Command.Arguments
import SemanticTokens.Json.Reader

/-!
# What the words of a call ask for

The words up to the command and those after it are scanned and checked apart.
The environment is looked at by the checks and for the level of detail of the
log, but not for what is to be encoded.
-/

namespace SemanticTokens

open Json (exists_of_bind_ok)

theorem Scanned.arguments_of_check
    {grammar : Grammar} {environment : Option String} {scanned : Scanned}
    {arguments : Arguments}
    (passed : scanned.check grammar environment = .ok arguments) :
    arguments = scanned.arguments := by
  unfold check at passed
  dsimp only at passed
  repeat' split at passed
  all_goals cases passed
  rfl

theorem eq_ok_of_ofCommand
    {α : Type} {name : String} {result : Except ParseStop α} {value : α}
    (named : ofCommand name result = .ok value) :
    result = .ok value := by
  unfold ofCommand at named
  split at named
  · cases named
  · exact named

/-- All that it takes for words to ask for an encoding. -/
theorem exists_of_parse_encode
    {words : List String} {environment : Option String}
    {level : Threshold} {task : EncodeTask}
    (parsed : parse words environment = .ok ⟨level, .encode task⟩) :
    ∃ outer inner rest,
      scan .program words = .ok outer ∧
        outer.command = some ("encode", rest) ∧
        scan .encode rest = .ok inner ∧
        inner.check .encode environment = .ok inner.arguments ∧
        outer.check .program environment = .ok outer.arguments ∧
        encodeTask inner.arguments = .ok task ∧
        threshold outer.arguments inner.arguments environment =
          .ok level := by
  unfold parse at parsed
  obtain ⟨outer, scanned, parsed⟩ := exists_of_bind_ok parsed
  split at parsed
  · cases parsed
  · rename_i rest command
    obtain ⟨inner, ended, parsed⟩ := exists_of_bind_ok parsed
    obtain ⟨innerArguments, innerChecked, parsed⟩ := exists_of_bind_ok parsed
    obtain ⟨outerArguments, outerChecked, parsed⟩ := exists_of_bind_ok parsed
    obtain ⟨found, asked, parsed⟩ := exists_of_bind_ok parsed
    obtain ⟨detail, chosen, parsed⟩ := exists_of_bind_ok parsed
    cases parsed
    obtain rfl := Scanned.arguments_of_check innerChecked
    obtain rfl := Scanned.arguments_of_check outerChecked
    exact
      ⟨outer, inner, rest, scanned, command, eq_ok_of_ofCommand ended,
        innerChecked, outerChecked, asked, chosen⟩
  · -- The words ask for the legend.
    obtain ⟨inner, _, parsed⟩ := exists_of_bind_ok parsed
    obtain ⟨innerArguments, _, parsed⟩ := exists_of_bind_ok parsed
    obtain ⟨outerArguments, _, parsed⟩ := exists_of_bind_ok parsed
    obtain ⟨detail, _, parsed⟩ := exists_of_bind_ok parsed
    cases parsed
  · cases parsed

/-- The environment has no part in what the words ask to be encoded. -/
theorem task_eq_of_parse_encode
    {words : List String} {environment otherEnvironment : Option String}
    {level otherLevel : Threshold} {task otherTask : EncodeTask}
    (parsed : parse words environment = .ok ⟨level, .encode task⟩)
    (otherParsed :
      parse words otherEnvironment = .ok ⟨otherLevel, .encode otherTask⟩) :
    task = otherTask := by
  obtain ⟨outer, inner, rest, scanned, command, ended, _, _, asked, _⟩ :=
    exists_of_parse_encode parsed
  obtain ⟨otherOuter, otherInner, otherRest, otherScanned, otherCommand,
    otherEnded, _, _, otherAsked, _⟩ := exists_of_parse_encode otherParsed
  obtain rfl : outer = otherOuter :=
    Except.ok.inj (scanned.symm.trans otherScanned)
  obtain ⟨_, rfl⟩ :=
    Prod.mk.inj (Option.some.inj (command.symm.trans otherCommand))
  obtain rfl : inner = otherInner :=
    Except.ok.inj (ended.symm.trans otherEnded)
  exact Except.ok.inj (asked.symm.trans otherAsked)

/-! ## How the reading of a call ends -/

section Endings

variable {words rest : List String} {environment : Option String}
  {outer inner : Scanned}

theorem parse_encode_of_scan_error
    (scanned : scan .program words = .ok outer)
    (command : outer.command = some ("encode", rest))
    {stop : ParseStop}
    (refused : ofCommand "encode" (scan .encode rest) = .error stop) :
    parse words environment = .error stop := by
  simp only [parse, scanned, command, refused, bind, Except.bind]

/-- The arguments of the command are checked before those of the program. -/
theorem parse_encode_of_check_error
    (scanned : scan .program words = .ok outer)
    (command : outer.command = some ("encode", rest))
    (ended : scan .encode rest = .ok inner)
    {stop : ParseStop}
    (refused : inner.check .encode environment = .error stop) :
    parse words environment = .error stop := by
  simp only [parse, scanned, command, ended, refused, ofCommand, bind,
    Except.bind]

theorem parse_encode_of_checks
    (scanned : scan .program words = .ok outer)
    (command : outer.command = some ("encode", rest))
    (ended : scan .encode rest = .ok inner)
    {innerArguments outerArguments : Arguments}
    (innerChecked : inner.check .encode environment = .ok innerArguments)
    (outerChecked : outer.check .program environment = .ok outerArguments)
    {task : EncodeTask}
    (asked : encodeTask innerArguments = .ok task)
    {level : Threshold}
    (chosen :
      threshold outerArguments innerArguments environment = .ok level) :
    parse words environment = .ok ⟨level, .encode task⟩ := by
  simp only [parse, scanned, command, ended, innerChecked, outerChecked,
    asked, chosen, ofCommand, bind, Except.bind]
  rfl

end Endings

section EncodeEndings

variable {words : List String} {stop : ParseStop}

theorem parseEncode_of_scan_error
    (refused : scan .encodeAlone words = .error stop) :
    parseEncode words = .error stop := by
  simp only [parseEncode, refused, bind, Except.bind]

theorem parseEncode_of_check_error
    {scanned : Scanned}
    (read : scan .encodeAlone words = .ok scanned)
    (refused : scanned.check .encodeAlone none = .error stop) :
    parseEncode words = .error stop := by
  simp only [parseEncode, read, refused, bind, Except.bind]

end EncodeEndings

end SemanticTokens
