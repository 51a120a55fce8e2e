import SemanticTokens.Proofs.Text.Printable
import SemanticTokens.Text

/-!
# Joining and splitting lines

Nonempty printable texts that are joined by line feeds are the lines of the
joined text.  There are two ways to take them apart again: reading lines, which
also strips carriage returns, and cutting at every line feed.  On printable
texts they agree, but for the empty text, which has no line and one piece.
-/

namespace SemanticTokens.Text

theorem linesAfter_append
    (reversed : List Char) {piece : List Char}
    (noNewline : '\n' ∉ piece) (rest : List Char) :
    linesAfter reversed (piece ++ rest) =
      linesAfter (piece.reverse ++ reversed) rest := by
  induction piece generalizing reversed with
  | nil =>
      rfl
  | cons character tail inductionHypothesis =>
      simp only [List.mem_cons, not_or] at noNewline
      rw [List.cons_append, linesAfter]
      · rw [inductionHypothesis (character :: reversed) noNewline.2,
          List.reverse_cons, List.append_assoc, List.singleton_append]
      · exact Ne.symm noNewline.1

theorem finishedLine_reverse
    {piece : List Char} (noReturn : '\r' ∉ piece) :
    finishedLine piece.reverse = piece := by
  cases reversed : piece.reverse with
  | nil =>
      rw [List.reverse_eq_nil_iff.mp reversed]
      rfl
  | cons character tail =>
      have notReturn : character ≠ '\r' := by
        intro isReturn
        apply noReturn
        rw [← List.mem_reverse, reversed, isReturn]
        exact List.mem_cons_self
      rw [finishedLine, ← reversed, List.reverse_reverse]
      intro remaining shape
      exact notReturn (List.cons.inj shape).1

/-- The lines of a text begin with a printable piece up to the first line
feed. -/
theorem lines_append_newline
    {piece : List Char} (printable : AllPrintable piece)
    (rest : List Char) :
    lines (piece ++ '\n' :: rest) = piece :: lines rest := by
  rw [lines, linesAfter_append [] (newline_not_mem printable),
    List.append_nil, linesAfter,
    finishedLine_reverse (carriageReturn_not_mem printable), lines]

theorem lines_of_allPrintable
    {piece : List Char} (printable : AllPrintable piece)
    (nonempty : piece ≠ []) :
    lines piece = [piece] := by
  have read := linesAfter_append [] (newline_not_mem printable) []
  rw [List.append_nil, List.append_nil, linesAfter] at read
  rw [lines, read, List.reverse_reverse, if_neg]
  simpa using nonempty

/-- Printable lines can be read back from the text that joins them. -/
theorem lines_intercalate
    {pieces : List (List Char)}
    (printable : ∀ piece ∈ pieces, AllPrintable piece)
    (nonempty : ∀ piece ∈ pieces, piece ≠ []) :
    lines (['\n'].intercalate pieces) = pieces := by
  induction pieces with
  | nil =>
      rfl
  | cons piece rest inductionHypothesis =>
      have headPrintable := printable piece List.mem_cons_self
      have tailLines :=
        inductionHypothesis
          (fun other member =>
            printable other (List.mem_cons_of_mem piece member))
          (fun other member =>
            nonempty other (List.mem_cons_of_mem piece member))
      by_cases last : rest = []
      · subst rest
        rw [List.intercalate_singleton]
        exact
          lines_of_allPrintable headPrintable
            (nonempty piece List.mem_cons_self)
      · rw [List.intercalate_cons_of_ne_nil last, List.append_assoc,
          List.singleton_append, lines_append_newline headPrintable,
          tailLines]

theorem splitOn_newline_intercalate
    {pieces : List (List Char)}
    (printable : ∀ piece ∈ pieces, AllPrintable piece)
    (nonempty : pieces ≠ []) :
    (['\n'].intercalate pieces).splitOn '\n' = pieces :=
  List.splitOn_intercalate '\n'
    (fun piece member => newline_not_mem (printable piece member))
    nonempty

end SemanticTokens.Text
