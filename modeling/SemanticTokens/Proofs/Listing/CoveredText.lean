import SemanticTokens.Proofs.CodeUnit.Cuts
import SemanticTokens.Proofs.Listing.Resolution
import SemanticTokens.Proofs.Text.Quotes

/-!
# The text that a line shows

The line of a token begins with the fields of the token and may go on with a
quoted text.  Over UTF-8 and UTF-16 sources it does so exactly if the token
covers something and lies between two boundaries of its source line, and then
it shows the characters between them.  Over UTF-32 sources the token need only
begin within its line, and a range that leaves the line is cut short.
-/

namespace SemanticTokens.Listing

/-- Whether a line of a listing shows the fields of a token and nothing
else. -/
def ShowsNoText
    (shown : List String) (legend : Legend) (index : Nat) (token : Token) :
    Prop :=
  shown[index]? = some (line legend (index + 1) token none)

/-- Whether a line of a listing shows the fields of a token and a quoted text
behind them. -/
def ShowsText
    (shown : List String) (legend : Legend) (index : Nat) (token : Token)
    (text : List Char) :
    Prop :=
  shown[index]? =
    some (line legend (index + 1) token none ++ " " ++ Text.quoted text)

def linesOf (source : Option String) : List (List Char) :=
  (source.map fun text => Text.lines text.toList).getD []

theorem line_some
    (legend : Legend) (number : Nat) (token : Token) (text : List Char) :
    line legend number token (some text) =
      line legend number token none ++ " " ++ Text.quoted text := by
  delta line
  rw [coveredPart, coveredPart, String.append_empty, ← String.append_assoc]

theorem getElem?_lines
    {data : List UInt32} {index : Nat} {token : Token}
    (decoded : (Delta.decode data)[index]? = some token)
    (source : Option String) (unit : CodeUnit) (legend : Legend) :
    (lines data source unit legend)[index]? =
      some
        (line legend (index + 1) token
          (textUnder? (linesOf source) unit token)) := by
  rw [lines, List.getElem?_mapIdx, decoded, Option.map_some, linesOf]

theorem line_none_ne_line_some
    (legend : Legend) (number : Nat) (token : Token) (text : List Char) :
    line legend number token none ≠
      line legend number token none ++ " " ++ Text.quoted text := by
  intro same
  have sameLength := congrArg (fun shown => shown.toList.length) same
  simp only [String.toList_append, List.length_append] at sameLength
  have space : " ".toList.length = 1 := rfl
  omega

theorem showsText_lines_iff
    {data : List UInt32} {index : Nat} {token : Token}
    (decoded : (Delta.decode data)[index]? = some token)
    (source : Option String) (unit : CodeUnit) (legend : Legend)
    (text : List Char) :
    ShowsText (lines data source unit legend) legend index token text ↔
      textUnder? (linesOf source) unit token = some text := by
  rw [ShowsText, getElem?_lines decoded, Option.some.injEq]
  cases textUnder? (linesOf source) unit token with
  | none =>
      constructor
      · intro same
        exact (line_none_ne_line_some legend _ token text same).elim
      · exact nofun
  | some other =>
      rw [line_some, Option.some.injEq]
      constructor
      · intro same
        have sameText := congrArg String.toList same
        rw [String.toList_append,
          String.toList_append (t := Text.quoted text)] at sameText
        have sameQuoted := List.append_cancel_left sameText
        rw [Text.quoted_injective (String.toList_inj.mp sameQuoted)]
      · rintro rfl
        rfl

theorem showsNoText_lines_iff
    {data : List UInt32} {index : Nat} {token : Token}
    (decoded : (Delta.decode data)[index]? = some token)
    (source : Option String) (unit : CodeUnit) (legend : Legend) :
    ShowsNoText (lines data source unit legend) legend index token ↔
      textUnder? (linesOf source) unit token = none := by
  rw [ShowsNoText, getElem?_lines decoded, Option.some.injEq]
  cases textUnder? (linesOf source) unit token with
  | none =>
      exact iff_of_true rfl rfl
  | some text =>
      rw [line_some]
      exact
        iff_of_false
          (fun same => line_none_ne_line_some legend _ token text same.symm)
          nofun

theorem textUnder?_eq_some_iff
    (sourceLines : List (List Char)) (unit : CodeUnit) (token : Token)
    (text : List Char) :
    textUnder? sourceLines unit token = some text ↔
      ∃ sourceLine,
        sourceLines[token.line.toNat]? = some sourceLine ∧
          unit.cut? sourceLine token.start token.length = some text ∧
            text ≠ [] := by
  rw [textUnder?, Option.bind_eq_bind, Option.bind_eq_some_iff]
  apply exists_congr
  intro sourceLine
  apply and_congr_right
  intro _
  cases unit.cut? sourceLine token.start token.length with
  | none =>
      exact
        iff_of_false (Option.some_ne_none text).symm
          fun cut => Option.some_ne_none text cut.1.symm
  | some covered =>
      rw [Option.bind_some, Option.some.injEq]
      cases covered with
      | nil =>
          constructor
          · intro shown
            cases shown
          · rintro ⟨rfl, someText⟩
            exact (someText rfl).elim
      | cons character rest =>
          constructor
          · rintro ⟨⟩
            exact ⟨rfl, List.cons_ne_nil character rest⟩
          · rintro ⟨rfl, _⟩
            rfl

theorem showsText_iff_cut?
    {data : List UInt32} {index : Nat} {token : Token}
    (decoded : (Delta.decode data)[index]? = some token)
    (source : String) (unit : CodeUnit) (legend : Legend)
    (text : List Char) :
    ShowsText (lines data (some source) unit legend) legend index token
        text ↔
      ∃ sourceLine,
        (Text.lines source.toList)[token.line.toNat]? = some sourceLine ∧
          unit.cut? sourceLine token.start token.length = some text ∧
            text ≠ [] := by
  rw [showsText_lines_iff decoded, textUnder?_eq_some_iff]
  rfl

/-- Outside UTF-32 a line shows the text that its token holds in a line of the
source. -/
theorem showsText_iff_occupies
    {data : List UInt32} {index : Nat} {token : Token}
    (decoded : (Delta.decode data)[index]? = some token)
    (source : String) {unit : CodeUnit} (splits : unit ≠ .utf32)
    (legend : Legend) (text : List Char) :
    ShowsText (lines data (some source) unit legend) legend index token
        text ↔
      ∃ sourceLine,
        (Text.lines source.toList)[token.line.toNat]? = some sourceLine ∧
          0 < token.length ∧
            unit.Occupies sourceLine text token.start.toNat
              token.length.toNat := by
  rw [showsText_iff_cut? decoded]
  simp only [CodeUnit.cut?_eq_some_and_ne_nil_iff splits]

theorem showsText_utf32_iff
    {data : List UInt32} {index : Nat} {token : Token}
    (decoded : (Delta.decode data)[index]? = some token)
    (source : String) (legend : Legend) (text : List Char) :
    ShowsText (lines data (some source) .utf32 legend) legend index token
        text ↔
      ∃ sourceLine,
        (Text.lines source.toList)[token.line.toNat]? = some sourceLine ∧
          0 < token.length ∧ token.start.toNat < sourceLine.length ∧
            text =
              (sourceLine.take
                (min (token.start.toNat + token.length.toNat)
                  sourceLine.length)).drop token.start.toNat := by
  rw [showsText_iff_cut? decoded]
  simp only [CodeUnit.cut?_utf32_eq_some_and_ne_nil_iff]

/-- The line of a token shows a quoted text exactly if the token covers
something, its line is in the source and, outside UTF-32, it begins and ends at
boundaries of this line, or, in UTF-32, it begins within the line.  The text is
what lies between the boundaries, or reaches to the end of the line at most.
No line shows a text without a source. -/
theorem lines_show_covered_text
    (data : List UInt32) (source : String) (unit : CodeUnit) (legend : Legend)
    {index : Nat} {token : Token}
    (decoded : (Delta.decode data)[index]? = some token) :
    let shown := lines data (some source) unit legend
    let sourceLine? := (Text.lines source.toList)[token.line.toNat]?
    let start := token.start.toNat
    let stop := token.start.toNat + token.length.toNat
    ShowsNoText (lines data none unit legend) legend index token ∧
      (ShowsNoText shown legend index token ↔
        ¬ ∃ text, ShowsText shown legend index token text) ∧
      (unit ≠ .utf32 →
        ((∃ text, ShowsText shown legend index token text) ↔
            0 < token.length ∧
              ∃ sourceLine, sourceLine? = some sourceLine ∧
                unit.IsBoundary sourceLine start ∧
                unit.IsBoundary sourceLine stop) ∧
          ∀ text, ShowsText shown legend index token text →
            ∃ sourceLine, sourceLine? = some sourceLine ∧
              unit.Occupies sourceLine text start token.length.toNat) ∧
      (unit = .utf32 →
        ((∃ text, ShowsText shown legend index token text) ↔
            0 < token.length ∧
              ∃ sourceLine, sourceLine? = some sourceLine ∧
                start < sourceLine.length) ∧
          ∀ text, ShowsText shown legend index token text →
            ∃ sourceLine, sourceLine? = some sourceLine ∧
              text =
                (sourceLine.take (min stop sourceLine.length)).drop
                  start) := by
  intro shown sourceLine? start stop
  refine ⟨?_, ?_, ?_, ?_⟩
  · rw [showsNoText_lines_iff decoded]
    exact textUnder?_nil unit token
  · rw [showsNoText_lines_iff decoded, Option.eq_none_iff_forall_ne_some,
      not_exists]
    exact forall_congr' fun text =>
      not_congr (showsText_lines_iff decoded (some source) unit legend text).symm
  · intro splits
    have shows := showsText_iff_occupies decoded source splits legend
    constructor
    · constructor
      · rintro ⟨text, isShown⟩
        obtain ⟨sourceLine, found, positive, occupies⟩ :=
          (shows text).mp isShown
        exact
          ⟨positive, sourceLine, found,
            (unit.exists_occupies_iff sourceLine _ _).mp ⟨text, occupies⟩⟩
      · rintro ⟨positive, sourceLine, found, boundaries⟩
        obtain ⟨text, occupies⟩ :=
          (unit.exists_occupies_iff sourceLine _ _).mpr boundaries
        exact
          ⟨text, (shows text).mpr ⟨sourceLine, found, positive, occupies⟩⟩
    · intro text isShown
      obtain ⟨sourceLine, found, _, occupies⟩ := (shows text).mp isShown
      exact ⟨sourceLine, found, occupies⟩
  · rintro rfl
    have shows := showsText_utf32_iff decoded source legend
    constructor
    · constructor
      · rintro ⟨text, isShown⟩
        obtain ⟨sourceLine, found, positive, within, _⟩ :=
          (shows text).mp isShown
        exact ⟨positive, sourceLine, found, within⟩
      · rintro ⟨positive, sourceLine, found, within⟩
        exact
          ⟨_, (shows _).mpr ⟨sourceLine, found, positive, within, rfl⟩⟩
    · intro text isShown
      obtain ⟨sourceLine, found, _, _, isCut⟩ := (shows text).mp isShown
      exact ⟨sourceLine, found, isCut⟩

/-- A token over the two surrogates of a character in the first line. -/
theorem lines_show_covered_text_of_surrogate_pair :
    (Delta.decode [0, 5, 2, 0, 0])[0]? = some ⟨0, 5, 2, 0, 0⟩ ∧
      ∃ text,
        ShowsText
            (lines [0, 5, 2, 0, 0] (some "s = \"𝛼\" + name\n") .utf16
              Legend.standard)
            Legend.standard 0 ⟨0, 5, 2, 0, 0⟩ text ∧
          ∃ sourceLine,
            (Text.lines "s = \"𝛼\" + name\n".toList)[0]? =
                some sourceLine ∧
              CodeUnit.Occupies .utf16 sourceLine text 5 2 := by
  have decoded :
      (Delta.decode [0, 5, 2, 0, 0])[0]? = some ⟨0, 5, 2, 0, 0⟩ := by
    decide
  obtain ⟨shows, covers⟩ :=
    (lines_show_covered_text [0, 5, 2, 0, 0] "s = \"𝛼\" + name\n" .utf16
      Legend.standard decoded).2.2.1 (by decide)
  obtain ⟨text, isShown⟩ :=
    shows.mpr
      ⟨by decide, "s = \"𝛼\" + name".toList, by decide,
        ⟨"s = \"".toList, "𝛼\" + name".toList, by decide, by decide⟩,
        ⟨"s = \"𝛼".toList, "\" + name".toList, by decide, by decide⟩⟩
  exact ⟨decoded, text, isShown, covers text isShown⟩

end SemanticTokens.Listing
