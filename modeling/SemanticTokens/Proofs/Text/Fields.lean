import SemanticTokens.Proofs.Text.Printable
import Std.Data.String.ToNat

/-!
# Fields of a text

A field that consists of characters of one class can be read off the front of a
text when something outside the class, or nothing, follows it.  Decimal numbers
are such fields, and so is everything that ends at a delimiter it does not
contain.  Hence fields that are joined by a delimiter can be told from the
joined text, as long as none of them is empty.
-/

namespace SemanticTokens.Text

/-- Whether a text does not go on with a character of a class. -/
def Stops (inside : Char → Bool) (rest : List Char) : Prop :=
  ∀ character ∈ rest.head?, inside character = false

theorem stops_cons
    (inside : Char → Bool) {character : Char}
    (outside : inside character = false) (rest : List Char) :
    Stops inside (character :: rest) := by
  intro first isFirst
  rw [List.head?_cons, Option.mem_some_iff] at isFirst
  rwa [← isFirst]

/-- A field and what follows it can be told from their text. -/
theorem append_inj_of_stops
    (inside : Char → Bool) :
    ∀ {left right leftRest rightRest : List Char},
      (∀ character ∈ left, inside character = true) →
      (∀ character ∈ right, inside character = true) →
      Stops inside leftRest →
      Stops inside rightRest →
      left ++ leftRest = right ++ rightRest →
        left = right ∧ leftRest = rightRest
  | [], [], _, _, _, _, _, _, same =>
      ⟨rfl, same⟩
  | [], character :: right, leftRest, _, _, rightInside, leftStops, _,
      same => by
      have outside := leftStops character (by
        rw [List.nil_append] at same
        rw [same, List.cons_append, List.head?_cons, Option.mem_some_iff])
      rw [rightInside character List.mem_cons_self] at outside
      cases outside
  | character :: left, [], _, rightRest, leftInside, _, _, rightStops,
      same => by
      have outside := rightStops character (by
        rw [List.nil_append] at same
        rw [← same, List.cons_append, List.head?_cons, Option.mem_some_iff])
      rw [leftInside character List.mem_cons_self] at outside
      cases outside
  | leftHead :: left, rightHead :: right, leftRest, rightRest, leftInside,
      rightInside, leftStops, rightStops, same => by
      simp only [List.cons_append, List.cons.injEq] at same
      obtain ⟨sameHead, sameTail⟩ := same
      obtain ⟨sameField, sameRest⟩ :=
        append_inj_of_stops inside
          (fun other member =>
            leftInside other (List.mem_cons_of_mem leftHead member))
          (fun other member =>
            rightInside other (List.mem_cons_of_mem rightHead member))
          leftStops rightStops sameTail
      rw [sameHead, sameField]
      exact ⟨rfl, sameRest⟩

/-- A field that ends at its first delimiter. -/
theorem append_delimiter_inj
    {delimiter : Char} {left right leftRest rightRest : List Char}
    (leftFree : delimiter ∉ left) (rightFree : delimiter ∉ right)
    (same : left ++ delimiter :: leftRest = right ++ delimiter :: rightRest) :
    left = right ∧ leftRest = rightRest := by
  have outside : (delimiter != delimiter) = false := bne_self_eq_false delimiter
  obtain ⟨sameField, sameRest⟩ :=
    append_inj_of_stops (· != delimiter)
      (fun character member =>
        bne_iff_ne.mpr (ne_of_mem_of_not_mem member leftFree))
      (fun character member =>
        bne_iff_ne.mpr (ne_of_mem_of_not_mem member rightFree))
      (stops_cons (· != delimiter) outside leftRest)
      (stops_cons (· != delimiter) outside rightRest) same
  exact ⟨sameField, (List.cons.inj sameRest).2⟩

/-! ## Joined fields -/

theorem intercalate_ne_nil
    {separator : List Char} {fields : List (List Char)}
    (nonempty : ∀ field ∈ fields, field ≠ []) (someField : fields ≠ []) :
    separator.intercalate fields ≠ [] := by
  cases fields with
  | nil =>
      exact (someField rfl).elim
  | cons field rest =>
      have head := nonempty field List.mem_cons_self
      by_cases last : rest = []
      · subst rest
        rwa [List.intercalate_singleton]
      · rw [List.intercalate_cons_of_ne_nil last, List.append_assoc]
        exact List.append_ne_nil_of_left_ne_nil head _

/-- Whether a text is a field that a delimiter can set off. -/
def IsField (delimiter : Char) (field : List Char) : Prop :=
  field ≠ [] ∧ delimiter ∉ field

/-- Joined fields can be told from their text. -/
theorem intercalate_delimiter_inj
    {delimiter : Char} {left right : List (List Char)}
    (leftFields : ∀ field ∈ left, IsField delimiter field)
    (rightFields : ∀ field ∈ right, IsField delimiter field)
    (same : [delimiter].intercalate left = [delimiter].intercalate right) :
    left = right := by
  -- Without fields and with one empty field the joined text is empty.
  have nonempty {fields : List (List Char)}
      (areFields : ∀ field ∈ fields, IsField delimiter field)
      (someField : fields ≠ []) :
      [delimiter].intercalate fields ≠ [] :=
    intercalate_ne_nil (fun field member => (areFields field member).1) someField
  by_cases leftNone : left = []
  · by_cases rightNone : right = []
    · rw [leftNone, rightNone]
    · rw [leftNone] at same
      exact (nonempty rightFields rightNone same.symm).elim
  · by_cases rightNone : right = []
    · rw [rightNone] at same
      exact (nonempty leftFields leftNone same).elim
    · have sameFields := congrArg (List.splitOn delimiter) same
      rwa [List.splitOn_intercalate delimiter
          (fun field member => (leftFields field member).2) leftNone,
        List.splitOn_intercalate delimiter
          (fun field member => (rightFields field member).2) rightNone]
        at sameFields

/-! ## Decimal numbers -/

theorem isDigit_of_mem_toDigits_ten
    {number : Nat} {character : Char}
    (member : character ∈ Nat.toDigits 10 number) :
    character.isDigit = true :=
  Nat.isDigit_of_mem_toDigits (by decide) (by decide) member

theorem toDigits_ten_injective
    {left right : Nat}
    (sameDigits : Nat.toDigits 10 left = Nat.toDigits 10 right) :
    left = right := by
  have sameNumber := congrArg (Nat.ofDigitChars 10 · 0) sameDigits
  simpa only [Nat.ofDigitChars_ten_toDigits] using sameNumber

theorem isField_toDigits_ten
    {delimiter : Char} (noDigit : delimiter.isDigit = false) (number : Nat) :
    IsField delimiter (Nat.toDigits 10 number) := by
  refine ⟨Nat.toDigits_ne_nil, ?_⟩
  intro member
  rw [isDigit_of_mem_toDigits_ten member] at noDigit
  cases noDigit

/-- A decimal number that no further digit follows. -/
theorem toDigits_append_inj
    {left right : Nat} {leftRest rightRest : List Char}
    (leftStops : Stops Char.isDigit leftRest)
    (rightStops : Stops Char.isDigit rightRest)
    (same :
      Nat.toDigits 10 left ++ leftRest = Nat.toDigits 10 right ++ rightRest) :
    left = right ∧ leftRest = rightRest := by
  obtain ⟨sameDigits, sameRest⟩ :=
    append_inj_of_stops Char.isDigit
      (fun _ => isDigit_of_mem_toDigits_ten)
      (fun _ => isDigit_of_mem_toDigits_ten) leftStops rightStops same
  exact ⟨toDigits_ten_injective sameDigits, sameRest⟩

end SemanticTokens.Text
