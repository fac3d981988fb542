import UnitSystems.Proofs.DefinitionFile.Written
import UnitSystems.Proofs.Grammar.Gap

/-!
# Quoted texts of a definition file

Between its quotes a written text is read in rounds: a backslash with the character after it, or
as many plain characters as there are. The rounds end at the closing quote, since a quote inside
the text is never plain.
-/

namespace UnitSystems.Grammar

/-- One round of the inside of a quoted text. -/
def quotedRound : Pattern Part :=
  .either (.joined (Form.text "\\") (.one fun _ => true)) (Form.someOf isPlainInQuotes)

/-- The plain characters at the start of a written text are written as themselves. -/
theorem takeWhile_written (text more : List Char) :
    (text.flatMap writtenChar ++ '"' :: more).takeWhile isPlainInQuotes =
      text.takeWhile isPlainInQuotes := by
  induction text with
  | nil => rfl
  | cons c text ih =>
    rw [List.flatMap_cons]
    cases hc : isPlainInQuotes c with
    | true => simp [writtenChar_of_plain c hc, hc, ih]
    | false =>
      obtain ⟨escape, hwritten, -⟩ := writtenChar_of_not_plain c hc
      simp [hwritten, hc, (by decide : isPlainInQuotes '\\' = false)]

/-- After its plain characters, a written text goes on with what it was written for. -/
theorem dropWhile_written (text more : List Char) :
    (text.flatMap writtenChar ++ '"' :: more).dropWhile isPlainInQuotes =
      (text.dropWhile isPlainInQuotes).flatMap writtenChar ++ '"' :: more := by
  induction text with
  | nil => rfl
  | cons c text ih =>
    rw [List.flatMap_cons]
    cases hc : isPlainInQuotes c with
    | true => simp [writtenChar_of_plain c hc, hc, ih]
    | false =>
      obtain ⟨escape, hwritten, -⟩ := writtenChar_of_not_plain c hc
      simp [hwritten, hc, (by decide : isPlainInQuotes '\\' = false)]

/-- One round takes the first character of a written text, and perhaps more plain ones. -/
theorem read_quotedRound (c : Char) (text more : List Char) :
    ∃ pieces, ∃ left : List Char, left.length ≤ text.length ∧
      quotedRound.read ((c :: text).flatMap writtenChar ++ '"' :: more) =
        some (pieces, left.flatMap writtenChar ++ '"' :: more) := by
  rw [List.flatMap_cons]
  cases hc : isPlainInQuotes c with
  | false =>
    obtain ⟨escape, hwritten, -⟩ := writtenChar_of_not_plain c hc
    exact ⟨[.plain ['\\'], .plain [escape]], text, Nat.le_refl _, by rw [hwritten]; rfl⟩
  | true =>
    have hslash : '\\' ≠ c := by
      rintro rfl
      exact absurd hc (by decide)
    refine ⟨[.plain [c], .plain (text.takeWhile isPlainInQuotes)],
      text.dropWhile isPlainInQuotes, (List.dropWhile_sublist _).length_le, ?_⟩
    rw [writtenChar_of_plain c hc, quotedRound, Pattern.read_either_right]
    · simp [Form.someOf, Pattern.read, hc, takeWhile_written, dropWhile_written]
    · simp [Form.text, Pattern.read, List.isPrefixOf?, hslash]

/-- The rounds of a written text end at its closing quote. -/
theorem rounds_quoted (bound text more : List Char) (hbound : text.length ≤ bound.length) :
    ∃ pieces, rounds quotedRound.read bound (text.flatMap writtenChar ++ '"' :: more) =
      (pieces, '"' :: more) := by
  induction bound generalizing text with
  | nil =>
    obtain rfl := List.eq_nil_of_length_eq_zero (Nat.le_zero.mp hbound)
    exact ⟨[], rfl⟩
  | cons b bound ih =>
    cases text with
    | nil => exact ⟨[], rfl⟩
    | cons c text =>
      obtain ⟨first, left, hleft, hround⟩ := read_quotedRound c text more
      obtain ⟨pieces, hrest⟩ := ih left (by simp only [List.length_cons] at hbound; omega)
      exact ⟨first ++ pieces, by simp only [rounds, hround, hrest]⟩

/-- Every character is written with at least one. -/
theorem writtenChar_ne_nil (c : Char) : writtenChar c ≠ [] := by
  cases hc : isPlainInQuotes c with
  | true => simp [writtenChar_of_plain c hc]
  | false =>
    obtain ⟨escape, hwritten, -⟩ := writtenChar_of_not_plain c hc
    simp [hwritten]

/-- The pieces of a quoted text: its quotes, and between them the text as it is written. -/
def stringPiece (text : String) : Piece Part :=
  .branch .string
    [.plain ['"'], .leaf .stringInner (text.toList.flatMap writtenChar), .plain ['"']]

/-- A written quoted text is read to its closing quote. -/
theorem read_string (text : String) (more : List Char) :
    Form.string.read (writtenQuoted text ++ more) = some ([stringPiece text], more) := by
  obtain ⟨pieces, hrounds⟩ := rounds_quoted (text.toList.flatMap writtenChar ++ '"' :: more)
    text.toList more (by
      have hlength := length_le_flatMap text.toList writtenChar fun c _ => writtenChar_ne_nil c
      rw [List.length_append]
      omega)
  have hinner : Form.stringInner.read (text.toList.flatMap writtenChar ++ '"' :: more) =
      some ([.leaf .stringInner (text.toList.flatMap writtenChar)], '"' :: more) :=
    Pattern.read_leaf _ _ _ _ _ pieces rfl (congrArg some hrounds)
  have hclosed := Pattern.read_joined _ (Form.text "\"") _ ('"' :: more) more _ [.plain ['"']]
    hinner rfl
  have hquoted := Pattern.read_joined (Form.text "\"") _ (writtenQuoted text ++ more)
    (text.toList.flatMap writtenChar ++ '"' :: more) more [.plain ['"']] _
    (by simp [writtenQuoted, Form.text, Pattern.read, List.isPrefixOf?]) hclosed
  exact Pattern.read_branch _ _ _ _ _ hquoted

/-- A quoted text that was written means the text. -/
theorem quotedText_stringPiece (text : String) :
    Directive.quotedText
      [.plain ['"'], .leaf .stringInner (text.toList.flatMap writtenChar), .plain ['"']] = text := by
  simp [Directive.quotedText, leafText?, resolveEscapes_written]

end UnitSystems.Grammar
