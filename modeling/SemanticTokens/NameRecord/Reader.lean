import SemanticTokens.Json.Skip
import SemanticTokens.Json.Value
import SemanticTokens.NameRecord.Printer

/-!
# Reading name records

A record is an object or a list.  In an object the fields come in any order,
each at most once, among members with other keys, which are skipped.  In a
list they come in a fixed order.  Name and kind are required; the other fields
have defaults, in a list only where it ends before them.
-/

namespace SemanticTokens

open Json

inductive NameField where
  | name
  | line
  | column
  | kind
  | isDefinition
  | inferred
  deriving DecidableEq, Repr

namespace NameField

/-- Every field, in the order of a record given as a list. -/
def all : List NameField :=
  [.name, .line, .column, .kind, .isDefinition, .inferred]

/-- Key of a field in a record given as an object. -/
def key : NameField → String
  | .name => "name"
  | .line => "line"
  | .column => "column"
  | .kind => "type"
  | .isDefinition => "is_definition"
  | .inferred => "inferred"

def ofKey? (key : String) : Option NameField :=
  all.find? fun field => field.key == key

end NameField

/-- The fields of a record that have been read. -/
structure NameDraft where
  name : Option String := none
  line : Option (Option UInt32) := none
  column : Option (Option UInt32) := none
  kind : Option String := none
  isDefinition : Option Bool := none
  inferred : Option (List String) := none
  deriving DecidableEq, Repr

namespace NameDraft

def has (draft : NameDraft) : NameField → Bool
  | .name => draft.name.isSome
  | .line => draft.line.isSome
  | .column => draft.column.isSome
  | .kind => draft.kind.isSome
  | .isDefinition => draft.isDefinition.isSome
  | .inferred => draft.inferred.isSome

/-- The record of the given name and kind, with the other fields or their defaults. -/
def record (draft : NameDraft) (name kind : String) : NameRecord where
  name := name
  line := draft.line.getD none
  column := draft.column.getD none
  kind := kind
  isDefinition := draft.isDefinition.getD false
  inferred := draft.inferred.getD []

def finish (draft : NameDraft) : Except Cause NameRecord :=
  match draft.name, draft.kind with
  | none, _ => .error (.missingField NameField.name.key)
  | some _, none => .error (.missingField NameField.kind.key)
  | some name, some kind => .ok (draft.record name kind)

def reader (draft : NameDraft) : NameField → Reader NameDraft
  | .name => Reader.text.map fun value => { draft with name := some value }
  | .line => Reader.optionalWord.map fun value => { draft with line := some value }
  | .column => Reader.optionalWord.map fun value => { draft with column := some value }
  | .kind => Reader.text.map fun value => { draft with kind := some value }
  | .isDefinition => Reader.boolean.map fun value => { draft with isDefinition := some value }
  | .inferred =>
      (Reader.list Reader.text).map fun value => { draft with inferred := some value }

end NameDraft

namespace NameRecord

/-! ## Records given as objects -/

/-- What stands where a member of an object may begin. -/
inductive NextMember where
  /-- The closing bracket; the rest follows it. -/
  | closed (rest : List Char)
  /-- A key; the rest follows its opening quote. -/
  | key (rest : List Char)

def nextMember (first : Bool) (text : List Char) : Except Fault NextMember :=
  match skipSpaces text with
  | [] => .error (.past .endInObject [])
  | '\x7d' :: rest => .ok (.closed rest)
  | character :: rest =>
      if first then
        if character = '"' then .ok (.key rest)
        else .error (.past .keyMustBeString (character :: rest))
      else if character = ',' then
        match skipSpaces rest with
        | [] => .error (.past .endInValue [])
        | '"' :: rest => .ok (.key rest)
        | '\x7d' :: rest => .error (.past .trailingComma ('\x7d' :: rest))
        | rest => .error (.past .keyMustBeString rest)
      else .error (.past .expectedObjectSeparator (character :: rest))

/-- Where a fault found between a key and its colon is placed: past the spaces
there and past the end of the object, if it ends there. -/
def afterKey (text : List Char) : List Char :=
  match skipSpaces text with
  | '\x7d' :: rest => rest
  | rest => rest

def readMember (draft : NameDraft) (key : String) (text : List Char) :
    Except Fault (NameDraft × List Char) :=
  match NameField.ofKey? key with
  | none => do return (draft, ← skipValue (← skipColon text))
  | some field =>
      if draft.has field then .error (.here (.duplicateField field.key) (afterKey text))
      else do (draft.reader field).read (← skipColon text)

theorem length_lt_of_nextMember {first : Bool} {text rest : List Char}
    (next : nextMember first text = .ok (.key rest)) : rest.length < text.length := by
  have spaces := length_skipSpaces_le text
  unfold nextMember at next
  split at next
  · simp at next
  · simp at next
  · rename_i character tail _ heading
    rw [heading, List.length_cons] at spaces
    split at next
    · split at next
      · simp only [Except.ok.injEq, NextMember.key.injEq] at next
        subst next
        omega
      · simp at next
    · split at next
      · have innerSpaces := length_skipSpaces_le tail
        split at next
        · simp at next
        · rename_i innerHeading
          rw [innerHeading, List.length_cons] at innerSpaces
          simp only [Except.ok.injEq, NextMember.key.injEq] at next
          subst next
          omega
        · simp at next
        · simp at next
      · simp at next

theorem length_lt_of_nextMember_closed {first : Bool} {text rest : List Char}
    (next : nextMember first text = .ok (.closed rest)) : rest.length < text.length := by
  have spaces := length_skipSpaces_le text
  unfold nextMember at next
  split at next
  · simp at next
  · rename_i heading
    rw [heading, List.length_cons] at spaces
    simp only [Except.ok.injEq, NextMember.closed.injEq] at next
    subst next
    omega
  · split at next
    · split at next <;> simp at next
    · split at next
      · split at next <;> simp at next
      · simp at next

theorem length_lt_of_readMember {draft result : NameDraft} {key : String}
    {text rest : List Char} (read : readMember draft key text = .ok (result, rest)) :
    rest.length < text.length := by
  unfold readMember at read
  split at read
  · obtain ⟨afterColon, colon, skipped⟩ := exists_of_bind_ok read
    obtain ⟨after, value, finished⟩ := exists_of_bind_ok skipped
    simp only [pure, Except.pure, Except.ok.injEq, Prod.mk.injEq] at finished
    obtain ⟨-, rfl⟩ := finished
    exact Nat.lt_of_le_of_lt (length_le_of_skipValue value) (length_lt_of_skipColon colon)
  · split at read
    · simp at read
    · obtain ⟨afterColon, colon, field⟩ := exists_of_bind_ok read
      exact Nat.lt_trans (Reader.shorter _ field) (length_lt_of_skipColon colon)

def readMembers (draft : NameDraft) (first : Bool) (text : List Char) : Reading NameRecord :=
  match _next : nextMember first text with
  | .error fault => .error fault
  | .ok (.closed rest) =>
      match draft.finish with
      | .error cause => .error (.here cause rest)
      | .ok record => .ok (record, rest)
  | .ok (.key start) =>
      match _key : readString [] start with
      | .error fault => .error fault
      | .ok (key, afterKey) =>
          match _member : readMember draft (String.ofList key) afterKey with
          | .error fault => .error fault
          | .ok (draft, rest) => readMembers draft false rest
termination_by text.length
decreasing_by
  have start := length_lt_of_nextMember _next
  have key := length_lt_of_readString _key
  have value := length_lt_of_readMember _member
  omega

theorem length_lt_of_readMembers {draft : NameDraft} {first : Bool} {text rest : List Char}
    {record : NameRecord} (read : readMembers draft first text = .ok (record, rest)) :
    rest.length < text.length := by
  fun_induction readMembers draft first text with
  | case1 => simp at read
  | case2 => simp at read
  | case3 draft first text tail next record finished =>
      simp only [Except.ok.injEq, Prod.mk.injEq] at read
      obtain ⟨-, rfl⟩ := read
      exact length_lt_of_nextMember_closed next
  | case4 => simp at read
  | case5 => simp at read
  | case6 draft first text start next key afterKey keyRead updated tail member
      inductionHypothesis =>
      have shorter := inductionHypothesis read
      have started := length_lt_of_nextMember next
      have keyLength := length_lt_of_readString keyRead
      have valueLength := length_lt_of_readMember member
      omega

/-! ## Records given as lists -/

/-- What is left of a list. -/
inductive ListTail where
  /-- Elements may follow. -/
  | more (rest : List Char)
  /-- The list has ended; the rest follows it. -/
  | closed (rest : List Char)

namespace ListTail

def rest : ListTail → List Char
  | more rest => rest
  | closed rest => rest

/-- Reads an element if there is one more. -/
def read? (item : Reader α) (first : Bool) : ListTail → Except Fault (Option α × ListTail)
  | closed rest => .ok (none, closed rest)
  | more text =>
      match nextElement first text with
      | .error fault => .error fault
      | .ok (.closed rest) => .ok (none, closed rest)
      | .ok (.element start) =>
          match item.read start with
          | .error fault => .error fault
          | .ok (value, rest) => .ok (some value, more rest)

/-- Reads an element that must not be missing after the given number of others. -/
def readRequired (item : Reader α) (before : Nat) (tail : ListTail) :
    Except Fault (α × ListTail) :=
  match tail.read? item (before = 0) with
  | .error fault => .error fault
  | .ok (none, tail) => .error (.here (.invalidLength before) tail.rest)
  | .ok (some value, tail) => .ok (value, tail)

def close : ListTail → Except Fault (List Char)
  | closed rest => .ok rest
  | more text => closeList text

theorem length_le_of_read? {item : Reader α} {first : Bool} {tail after : ListTail}
    {value : Option α} (read : tail.read? item first = .ok (value, after)) :
    after.rest.length ≤ tail.rest.length := by
  cases tail with
  | closed rest =>
      simp only [read?, Except.ok.injEq, Prod.mk.injEq] at read
      obtain ⟨-, rfl⟩ := read
      exact Nat.le_refl _
  | more text =>
      simp only [read?] at read
      split at read
      · simp at read
      · rename_i next
        simp only [Except.ok.injEq, Prod.mk.injEq] at read
        obtain ⟨-, rfl⟩ := read
        exact Nat.le_of_lt (length_lt_of_nextElement_closed next)
      · rename_i next
        split at read
        · simp at read
        · rename_i element
          simp only [Except.ok.injEq, Prod.mk.injEq] at read
          obtain ⟨-, rfl⟩ := read
          exact Nat.le_trans (Nat.le_of_lt (item.shorter element)) (length_le_of_nextElement next)

theorem length_le_of_readRequired {item : Reader α} {before : Nat} {tail after : ListTail}
    {value : α} (read : tail.readRequired item before = .ok (value, after)) :
    after.rest.length ≤ tail.rest.length := by
  unfold readRequired at read
  split at read
  · simp at read
  · simp at read
  · rename_i element
    simp only [Except.ok.injEq, Prod.mk.injEq] at read
    obtain ⟨-, rfl⟩ := read
    exact length_le_of_read? element

theorem length_le_of_close {tail : ListTail} {after : List Char}
    (close : tail.close = .ok after) : after.length ≤ tail.rest.length := by
  cases tail with
  | closed rest =>
      simp only [ListTail.close, Except.ok.injEq] at close
      exact Nat.le_of_eq (congrArg List.length close.symm)
  | more text => exact Nat.le_of_lt (length_lt_of_closeList close)

end ListTail

def readElements (text : List Char) : Except Fault (NameRecord × List Char) := do
  let (name, tail) ← ListTail.readRequired Reader.text 0 (.more text)
  let (line, tail) ← tail.read? Reader.optionalWord false
  let (column, tail) ← tail.read? Reader.optionalWord false
  let (kind, tail) ← tail.readRequired Reader.text 3
  let (isDefinition, tail) ← tail.read? Reader.boolean false
  let (inferred, tail) ← tail.read? (Reader.list Reader.text) false
  let draft : NameDraft :=
    { name := name, line := line, column := column, kind := kind,
      isDefinition := isDefinition, inferred := inferred }
  return (draft.record name kind, ← tail.close)

theorem length_le_of_readElements {text rest : List Char} {record : NameRecord}
    (read : readElements text = .ok (record, rest)) : rest.length ≤ text.length := by
  obtain ⟨⟨_, _⟩, name, read⟩ := exists_of_bind_ok read
  obtain ⟨⟨_, _⟩, line, read⟩ := exists_of_bind_ok read
  obtain ⟨⟨_, _⟩, column, read⟩ := exists_of_bind_ok read
  obtain ⟨⟨_, _⟩, kind, read⟩ := exists_of_bind_ok read
  obtain ⟨⟨_, _⟩, isDefinition, read⟩ := exists_of_bind_ok read
  obtain ⟨⟨_, _⟩, inferred, read⟩ := exists_of_bind_ok read
  obtain ⟨_, close, read⟩ := exists_of_bind_ok read
  simp only [pure, Except.pure, Except.ok.injEq, Prod.mk.injEq] at read
  obtain ⟨-, rfl⟩ := read
  have nameLength := ListTail.length_le_of_readRequired name
  have lineLength := ListTail.length_le_of_read? line
  have columnLength := ListTail.length_le_of_read? column
  have kindLength := ListTail.length_le_of_readRequired kind
  have isDefinitionLength := ListTail.length_le_of_read? isDefinition
  have inferredLength := ListTail.length_le_of_read? inferred
  have closeLength := ListTail.length_le_of_close close
  simp only [ListTail.rest] at *
  omega

/-! ## Lists of records -/

/-- Reads a record in either form. -/
def readRecord (text : List Char) : Reading NameRecord :=
  match skipSpaces text with
  | '[' :: rest => readElements rest
  | '\x7b' :: rest => readMembers {} true rest
  | start => .error (unexpected .record start)

theorem length_lt_of_readRecord {text rest : List Char} {record : NameRecord}
    (read : readRecord text = .ok (record, rest)) : rest.length < text.length := by
  have spaces := length_skipSpaces_le text
  unfold readRecord at read
  split at read
  · rename_i heading
    rw [heading] at spaces
    exact Nat.lt_of_le_of_lt (length_le_of_readElements read) spaces
  · rename_i heading
    rw [heading] at spaces
    exact Nat.lt_trans (length_lt_of_readMembers read) spaces
  · simp at read

def reader : Reader NameRecord :=
  ⟨readRecord, length_lt_of_readRecord⟩

/-- Reads a text that is one list of records. -/
def readAll (text : List Char) : Except Fault (List NameRecord) := do
  let (records, rest) ← (Reader.list reader).read text
  match skipSpaces rest with
  | [] => return records
  | rest => throw (.past .trailingCharacters rest)

end NameRecord

end SemanticTokens
