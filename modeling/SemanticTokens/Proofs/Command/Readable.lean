import SemanticTokens.Command.Run

/-!
# Readable inputs

An input gives a text if its content is there and is UTF-8.  What a run takes
from its inputs is decided by their contents alone: each is readable or not,
and reading yields the text or the reason that there is none.
-/

namespace SemanticTokens

/-- Whether some content is there and is a text in UTF-8. -/
def Readable (content : Except ReadFailure ByteArray) (text : String) : Prop :=
  content = .ok text.toUTF8

/-- Why some content gives no text. -/
inductive Unreadable : Except ReadFailure ByteArray → ReadFailure → Prop
  | unavailable (reason : ReadFailure) :
      Unreadable (.error reason) reason
  | notUtf8 {bytes : ByteArray}
      (noText : ∀ text : String, text.toUTF8 ≠ bytes) :
      Unreadable (.ok bytes) .notUtf8

theorem toUTF8_ne_of_not_valid
    {bytes : ByteArray} (invalid : ¬ bytes.IsValidUTF8) (text : String) :
    text.toUTF8 ≠ bytes := by
  intro same
  apply invalid
  rw [← same]
  exact text.isValidUTF8

namespace Inputs

def content (inputs : Inputs) (path : String) : Except ReadFailure ByteArray :=
  if FilePath.isStandardInput path then inputs.standardInput
  else inputs.file path

theorem content_dash
    (inputs : Inputs) :
    inputs.content "-" = inputs.standardInput := by
  have standard : FilePath.isStandardInput "-" = true := by
    decide
  rw [content, if_pos standard]

/-- Whether a listing over an optional source path shows a given text. -/
inductive ShowsSource (inputs : Inputs) :
    Option String → Option String → Prop
  | nothing : ShowsSource inputs none none
  | document {path text : String}
      (readable : Readable (inputs.file path) text) :
      ShowsSource inputs (some path) (some text)

theorem readable_or_unreadable
    (content : Except ReadFailure ByteArray) :
    (∃ text, Readable content text) ∨ ∃ reason, Unreadable content reason := by
  cases content with
  | error reason =>
      exact Or.inr ⟨reason, .unavailable reason⟩
  | ok bytes =>
      by_cases isText : ∃ text : String, text.toUTF8 = bytes
      · obtain ⟨text, rfl⟩ := isText
        exact Or.inl ⟨text, rfl⟩
      · exact
          Or.inr ⟨.notUtf8, .notUtf8 fun text same => isText ⟨text, same⟩⟩

theorem bind_decode_of_readable
    {content : Except ReadFailure ByteArray} {text : String}
    (readable : Readable content text) :
    content >>= decode = .ok text := by
  have decoded : decode text.toUTF8 = .ok text := by
    rw [decode, String.fromUTF8?, String.toUTF8_eq_toByteArray,
      dif_pos text.isValidUTF8]
    rfl
  rw [readable]
  exact decoded

theorem bind_decode_of_unreadable
    {content : Except ReadFailure ByteArray} {reason : ReadFailure}
    (unreadable : Unreadable content reason) :
    content >>= decode = .error reason := by
  cases unreadable with
  | unavailable =>
      rfl
  | @notUtf8 bytes noText =>
      change decode bytes = .error .notUtf8
      rw [decode, String.fromUTF8?, dif_neg]
      intro valid
      exact noText (String.fromUTF8 bytes valid) rfl

theorem fileText_of_readable
    {inputs : Inputs} {path text : String}
    (readable : Readable (inputs.file path) text) :
    inputs.fileText path = .ok text := by
  rw [fileText, bind_decode_of_readable readable]

theorem fileText_of_unreadable
    {inputs : Inputs} {path : String} {reason : ReadFailure}
    (unreadable : Unreadable (inputs.file path) reason) :
    inputs.fileText path = .error ⟨.input, reason.text, some path⟩ := by
  rw [fileText, bind_decode_of_unreadable unreadable]
  rfl

theorem inputText_of_readable
    {inputs : Inputs} {path text : String}
    (readable : Readable (inputs.content path) text) :
    inputs.inputText path = .ok text := by
  by_cases standard : FilePath.isStandardInput path = true
  · rw [content, if_pos standard] at readable
    rw [inputText, if_pos standard, bind_decode_of_readable readable]
  · rw [content, if_neg standard] at readable
    rw [inputText, if_neg standard, fileText_of_readable readable]

theorem inputText_of_unreadable
    {inputs : Inputs} {path : String} {reason : ReadFailure}
    (unreadable : Unreadable (inputs.content path) reason) :
    inputs.inputText path =
      .error
        ⟨.input, reason.text,
          if FilePath.isStandardInput path then none else some path⟩ := by
  by_cases standard : FilePath.isStandardInput path = true
  · rw [content, if_pos standard] at unreadable
    rw [inputText, if_pos standard, if_pos standard,
      bind_decode_of_unreadable unreadable]
    rfl
  · rw [content, if_neg standard] at unreadable
    rw [inputText, if_neg standard, if_neg standard,
      fileText_of_unreadable unreadable]

theorem sourceText_of_showsSource
    {inputs : Inputs} {source text : Option String}
    (shown : inputs.ShowsSource source text) :
    inputs.sourceText source = .ok text := by
  cases shown with
  | nothing =>
      rfl
  | document readable =>
      rw [sourceText, fileText_of_readable readable]
      rfl

end Inputs

end SemanticTokens
