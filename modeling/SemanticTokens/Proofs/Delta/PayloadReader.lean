import SemanticTokens.Json.Skip
import SemanticTokens.Proofs.Delta.Payload
import SemanticTokens.Proofs.Json.Forms

/-!
# Reading payloads

A client reads a payload as JSON: an object whose only member is a list of
words.  White space may stand between the tokens, and nothing else before or
after the object.  What is read from a payload is the stream of its groups.
-/

namespace SemanticTokens

namespace Json

def readWord (text : List Char) : Reading UInt32 :=
  match readOptionalWord text with
  | .error fault => .error fault
  | .ok (none, rest) => .error (.here (.invalidType .null .word) rest)
  | .ok (some word, rest) => .ok (word, rest)

theorem length_lt_of_readWord
    {text rest : List Char} {word : UInt32}
    (read : readWord text = .ok (word, rest)) :
    rest.length < text.length := by
  rw [readWord] at read
  split at read
  · cases read
  · cases read
  · rename_i optional
    cases read
    exact length_lt_of_readOptionalWord optional

namespace Reader

def word : Reader UInt32 :=
  ⟨readWord, length_lt_of_readWord⟩

theorem isForm_word
    (value : UInt32) :
    word.IsForm (Nat.toDigits 10 value.toNat) value where
  begins := (isForm_toDigits value).begins
  reads {rest} stops := by
    have optional :
        readOptionalWord (Nat.toDigits 10 value.toNat ++ rest) =
          .ok (some value, rest) :=
      (isForm_toDigits value).reads stops
    change readWord (Nat.toDigits 10 value.toNat ++ rest) = .ok (value, rest)
    rw [readWord, optional]

end Reader

end Json

namespace Delta

open Json Text DeltaGroup

/-- Reads the stream of a payload. -/
def readPayload? (text : List Char) : Option (List UInt32) := do
  let '\x7b' :: text := skipSpaces text | none
  let '"' :: text := skipSpaces text | none
  let (key, text) ← (readString [] text).toOption
  let text ← (skipColon text).toOption
  let (stream, text) ← ((Reader.list Reader.word).read text).toOption
  let '\x7d' :: text := skipSpaces text | none
  if key = "data".toList ∧ skipSpaces text = [] then return stream else none

theorem isForm_stream
    (stream : List UInt32) :
    (Reader.list Reader.word).IsForm
      ('[' ::
        [','].intercalate
          (stream.map fun number => Nat.toDigits 10 number.toNat) ++ [']'])
      stream :=
  Reader.IsForm.list fun number _ => Reader.isForm_word number

/-- The stream that a payload carries is read back from it. -/
theorem readPayload?_payload
    (groups : List DeltaGroup) :
    readPayload? (payload groups).toList = some (groups.flatMap numbers) := by
  have opening :
      "\x7b\"data\":[".toList =
        ['\x7b', '"', 'd', 'a', 't', 'a', '"', ':', '['] := by
    decide
  have closing : "]\x7d".toList = [']', '\x7d'] := by
    decide
  have key (rest : List Char) :
      readString [] ('d' :: 'a' :: 't' :: 'a' :: '"' :: rest) =
        .ok ("data".toList, rest) :=
    readString_flatMap_literalChar_append ['d', 'a', 't', 'a'] [] rest
  have stream :=
    (isForm_stream (groups.flatMap numbers)).reads
      (stops_cons continuesNumber
        (show continuesNumber '\x7d' = false by decide) [])
  have colon (rest : List Char) : skipColon (':' :: rest) = .ok rest := by
    rfl
  have token (character : Char) (noSpace : isSpace character = false)
      (rest : List Char) :=
    skipSpaces_cons_of_not_space noSpace rest
  rw [toList_payload, opening, closing]
  simp only [List.cons_append, List.nil_append, List.append_assoc]
    at stream ⊢
  simp [readPayload?, token '\x7b' (by decide), token '"' (by decide), key,
    colon, stream, token '\x7d' (by decide), Except.toOption]

end Delta

end SemanticTokens
