import UnitSystems.Proofs.Grammar.Lists
import UnitSystems.Proofs.Grammar.Rounds

/-!
# Blank and comment lines

Blanks, line breaks and comments may stand before every system and every directive, and after the
commas of a list. However the grammar passes over them, it reaches the first character of the text
that belongs to none of them. A text that a line break follows ends there for a gap, and passing
over its padding only goes on behind it when nothing else is left.
-/

namespace UnitSystems.Grammar

variable {ν : Type}

/-- The text from the first character on that is no blank, no line break and in no comment, given
whether the text begins in a comment. -/
def pastPadding (inComment : Bool) : List Char → List Char
  | [] => []
  | c :: text =>
    if inComment then pastPadding (!isLineBreak c) text
    else if isBlank c || isLineBreak c then pastPadding false text
    else if c = '#' then pastPadding true text
    else c :: text

/-- The text after its blank and comment lines and the blanks before its first word. -/
abbrev afterPadding (text : List Char) : List Char :=
  pastPadding false text

/-- Line breaks are no blanks. -/
theorem isBlank_of_isLineBreak (c : Char) (hc : isLineBreak c = true) : isBlank c = false := by
  simp only [isLineBreak, Bool.or_eq_true, beq_iff_eq] at hc
  rcases hc with rfl | rfl <;> decide

/-- Line breaks begin no comment. -/
theorem ne_of_isLineBreak (c : Char) (hc : isLineBreak c = true) : c ≠ '#' := by
  rintro rfl
  contradiction

/-- A line break is padding. -/
theorem pastPadding_lineBreak (inComment : Bool) (c : Char) (text : List Char)
    (hc : isLineBreak c = true) : pastPadding inComment (c :: text) = afterPadding text := by
  cases inComment <;> simp [pastPadding, hc]

/-- Blanks are padding. -/
theorem afterPadding_dropBlanks (text : List Char) :
    afterPadding (text.dropWhile isBlank) = afterPadding text := by
  induction text with
  | nil => rfl
  | cons c text ih =>
    cases hc : isBlank c with
    | true => simp [hc, ih, pastPadding]
    | false => simp [hc]

/-- A comment runs to the end of its line. -/
theorem afterPadding_dropComment (text : List Char) :
    afterPadding (text.dropWhile fun c => !isLineBreak c) = pastPadding true text := by
  induction text with
  | nil => rfl
  | cons c text ih =>
    cases hc : isLineBreak c with
    | true => simp [hc, pastPadding_lineBreak]
    | false => simp [hc, ih, pastPadding]

/-- A gap is padding. -/
theorem afterPadding_gap (text : List Char) : afterPadding (gap text).2 = afterPadding text := by
  have hblanks := afterPadding_dropBlanks text
  unfold gap
  simp only [List.span_eq_takeWhile_dropWhile]
  split
  · next comment hcomment =>
    rw [hcomment] at hblanks ⊢
    rw [afterPadding_dropComment, ← hblanks]
    rfl
  · exact hblanks

/-- What is left after a run begins with no character of the class. -/
theorem head_dropWhile (isMember : Char → Bool) (text : List Char) (c : Char)
    (hc : c ∈ (text.dropWhile isMember).head?) : isMember c = false := by
  rw [Option.mem_def, List.head?_eq_some_iff] at hc
  obtain ⟨rest, hrest⟩ := hc
  have hhead := List.head_dropWhile_not isMember (l := text) (by simp [hrest])
  simpa [hrest] using hhead

/-- No gap stands after a gap. -/
theorem isSolid_gap (text : List Char) : IsSolid (gap text).2 := by
  unfold gap
  simp only [List.span_eq_takeWhile_dropWhile]
  split
  · intro c hc
    have hbreak : isLineBreak c = true := by simpa using head_dropWhile _ _ c hc
    exact ⟨isBlank_of_isLineBreak c hbreak, ne_of_isLineBreak c hbreak⟩
  · next hcomment =>
    intro c hc
    refine ⟨head_dropWhile _ _ c hc, ?_⟩
    rintro rfl
    obtain ⟨rest, hrest⟩ := List.head?_eq_some_iff.mp hc
    exact hcomment rest hrest

/-- A line break ends a gap. -/
theorem gap_append_lineBreak (c : Char) (hc : isLineBreak c = true) (text more : List Char) :
    gap (text ++ c :: more) = ((gap text).1, (gap text).2 ++ c :: more) := by
  have hblank := isBlank_of_isLineBreak c hc
  have hcomment : (!isLineBreak c) = false := by simp [hc]
  unfold gap
  simp only [List.span_eq_takeWhile_dropWhile, takeWhile_append_refused _ _ _ _ hblank,
    dropWhile_append_refused _ _ _ _ hblank]
  cases hrest : text.dropWhile isBlank with
  | nil =>
    simp only [List.nil_append]
    split
    · next heq => exact absurd (List.cons.inj heq).1 (ne_of_isLineBreak c hc)
    · rfl
  | cons d rest =>
    by_cases hd : d = '#'
    · subst hd
      have htake := takeWhile_append_refused (fun d => !isLineBreak d) ('#' :: rest) more c hcomment
      have hdrop := dropWhile_append_refused (fun d => !isLineBreak d) ('#' :: rest) more c hcomment
      simp only [List.cons_append] at htake hdrop ⊢
      rw [htake, hdrop]
    · simp only [List.cons_append]
      split
      · next heq => exact absurd (List.cons.inj heq).1 hd
      · split
        · next heq => exact absurd (List.cons.inj heq).1 hd
        · rfl

/-- After a line break, passing over padding goes on behind it when nothing else is left of the
text before it. -/
theorem pastPadding_append (inComment : Bool) (text more : List Char) (c : Char)
    (hc : isLineBreak c = true) : pastPadding inComment (text ++ c :: more) =
      if pastPadding inComment text = [] then afterPadding more
      else pastPadding inComment text ++ c :: more := by
  induction text generalizing inComment with
  | nil => simp [pastPadding, pastPadding_lineBreak inComment c more hc]
  | cons d text ih =>
    rw [List.cons_append, pastPadding, pastPadding]
    split
    · exact ih _
    · split
      · exact ih _
      · split
        · exact ih _
        · simp

/-- Padding ends at the end of the text or at a character that is none of it. -/
theorem pastPadding_head (inComment : Bool) (text : List Char) (c : Char)
    (hc : c ∈ (pastPadding inComment text).head?) :
    isBlank c = false ∧ isLineBreak c = false ∧ c ≠ '#' := by
  induction text generalizing inComment with
  | nil => simp [pastPadding] at hc
  | cons d text ih =>
    rw [pastPadding] at hc
    split at hc
    · exact ih _ hc
    · next =>
      split at hc
      · exact ih _ hc
      · next hpadding =>
        split at hc
        · exact ih _ hc
        · next hcomment =>
          obtain rfl : d = c := by simpa using hc
          simp only [Bool.or_eq_true, not_or, Bool.not_eq_true] at hpadding
          exact ⟨hpadding.1, hpadding.2, hcomment⟩

/-- No gap stands after padding. -/
theorem isSolid_afterPadding (text : List Char) : IsSolid (afterPadding text) := fun c hc =>
  ⟨(pastPadding_head false text c hc).1, (pastPadding_head false text c hc).2.2⟩

/-- A solid text that begins with no line break begins with no padding. -/
theorem afterPadding_eq_self (text : List Char) (hsolid : IsSolid text)
    (hbreak : ∀ c ∈ text.head?, isLineBreak c = false) : afterPadding text = text := by
  cases text with
  | nil => rfl
  | cons c text =>
    obtain ⟨hblank, hcomment⟩ := hsolid c rfl
    simp [pastPadding, hblank, hcomment, hbreak c rfl]

/-- Pieces without a named part. -/
def Piece.ArePlain (pieces : List (Piece ν)) : Prop :=
  ∀ piece ∈ pieces, ∃ text, piece = .plain text

/-- A line break is a line feed, a carriage return, or the one after the other. -/
theorem read_lineBreak_eq (text : List Char) : Form.lineBreak.read text =
    match text with
    | '\n' :: rest => some ([.plain ['\n']], rest)
    | '\r' :: '\n' :: rest => some ([.plain ['\r', '\n']], rest)
    | '\r' :: rest => some ([.plain ['\r']], rest)
    | _ => none := by
  split
  · rfl
  · rfl
  · next rest hrest =>
    cases rest with
    | nil => rfl
    | cons c rest =>
      have hc : '\n' ≠ c := fun heq => hrest rest (by rw [heq])
      simp [Form.lineBreak, Form.firstOf, Form.text, Pattern.read, List.isPrefixOf?, hc]
  · next hfeed hpair hreturn =>
    cases text with
    | nil => rfl
    | cons c text =>
      apply read_lineBreak_eq_none
      rw [isLineBreak, Bool.or_eq_false_iff, beq_eq_false_iff_ne, beq_eq_false_iff_ne]
      exact ⟨fun heq => hfeed text (by rw [heq]), fun heq => hreturn text (by rw [heq])⟩

/-- A line break is read where one stands, as plain text that is padding. -/
theorem of_read_lineBreak {text rest : List Char} {pieces : List (Piece Part)}
    (h : Form.lineBreak.read text = some (pieces, rest)) :
    (∃ c ∈ text.head?, isLineBreak c = true) ∧ afterPadding rest = afterPadding text ∧
      Piece.ArePlain pieces := by
  rw [read_lineBreak_eq] at h
  split at h
  all_goals first
    | contradiction
    | obtain ⟨rfl, rfl⟩ := Prod.mk.inj (Option.some.inj h)
      exact ⟨⟨_, rfl, rfl⟩, rfl, by simp [Piece.ArePlain]⟩

/-- A line break can be read where one stands. -/
theorem isSome_read_lineBreak (c : Char) (hc : isLineBreak c = true) (text : List Char) :
    (Form.lineBreak.read (c :: text)).isSome = true := by
  simp only [isLineBreak, Bool.or_eq_true, beq_iff_eq] at hc
  rcases hc with rfl | rfl
  · rfl
  · simp only [Form.lineBreak, Form.firstOf, Pattern.read_either_eq, Option.isSome_or,
      Bool.or_eq_true]
    exact .inr (.inr rfl)

/-- A line break is read as before when something follows it already. -/
theorem read_lineBreak_append {text rest : List Char} {pieces : List (Piece Part)}
    (h : Form.lineBreak.read text = some (pieces, rest)) (hrest : rest ≠ []) (more : List Char) :
    Form.lineBreak.read (text ++ more) = some (pieces, rest ++ more) := by
  rw [read_lineBreak_eq] at h
  split at h
  · obtain ⟨rfl, rfl⟩ := Prod.mk.inj (Option.some.inj h)
    rfl
  · obtain ⟨rfl, rfl⟩ := Prod.mk.inj (Option.some.inj h)
    rfl
  · next left hleft =>
    obtain ⟨rfl, rfl⟩ := Prod.mk.inj (Option.some.inj h)
    obtain ⟨c, left, rfl⟩ := List.exists_cons_of_ne_nil hrest
    have hc : c ≠ '\n' := fun heq => hleft left (by rw [heq])
    rw [read_lineBreak_eq]
    simp [hc]
  · contradiction

/-- Line breaks are passed over up to the end of the padding, but for the blanks after the last. -/
theorem of_read_breaks {text rest : List Char} {pieces : List (Piece Part)}
    (h : (Pattern.spacedMany Form.lineBreak).read text = some (pieces, rest))
    (hsolid : IsSolid text) :
    (gap rest).2 = afterPadding text ∧ afterPadding rest = afterPadding text ∧
      Piece.ArePlain pieces := by
  have hend (text : List Char) (hnone : Form.lineBreak.read (gap text).2 = none) :
      (gap text).2 = afterPadding text := by
    rw [← afterPadding_gap]
    refine (afterPadding_eq_self _ (isSolid_gap text) fun c hc => ?_).symm
    obtain ⟨more, hmore⟩ := List.head?_eq_some_iff.mp hc
    by_contra hbreak
    rw [Bool.not_eq_false] at hbreak
    have hsome := isSome_read_lineBreak c hbreak more
    rw [← hmore, hnone] at hsome
    contradiction
  have hrounds (first more : List Char) (parts : List (Piece Part))
      (hrepeats : Repeats (afterGap Form.lineBreak.read) first parts more) :
      (gap more).2 = afterPadding first ∧ afterPadding more = afterPadding first ∧
        Piece.ArePlain parts := by
    induction hrepeats with
    | stop hstop =>
      exact ⟨hend _ (Option.map_eq_none_iff.mp hstop), rfl, by simp [Piece.ArePlain]⟩
    | round hround hmore ih =>
      obtain ⟨inner, hinner, rfl⟩ := exists_of_afterGap hround
      obtain ⟨-, hpadding, hplain⟩ := of_read_lineBreak hinner
      rw [afterPadding_gap] at hpadding
      rw [← hpadding]
      refine ⟨ih.1, ih.2.1, ?_⟩
      rw [Piece.ArePlain, List.forall_mem_append, List.forall_mem_cons]
      exact ⟨⟨⟨_, rfl⟩, hplain⟩, ih.2.2⟩
  obtain ⟨hnone, rfl, rfl⟩ | ⟨first, middle, more, hfirst, hrepeats, rfl⟩ :=
    (Pattern.read_spacedMany_iff _ (by decide)).mp h
  · have hgap := gap_of_isSolid _ hsolid
    exact ⟨hend _ (by rw [hgap]; exact hnone), rfl, by simp [Piece.ArePlain]⟩
  · obtain ⟨-, hpadding, hplain⟩ := of_read_lineBreak hfirst
    obtain ⟨hgap, hmore, hparts⟩ := hrounds _ _ _ hrepeats
    rw [← hpadding]
    refine ⟨hgap, hmore, ?_⟩
    rw [Piece.ArePlain, List.forall_mem_append]
    exact ⟨hplain, hparts⟩

/-- Line breaks after a gap are plain padding, and what is left has as much padding before it. -/
theorem of_read_breaks_afterGap {text rest : List Char} {pieces : List (Piece Part)}
    (h : afterGap (Pattern.spacedMany Form.lineBreak).read text = some (pieces, rest)) :
    Piece.ArePlain pieces ∧ Piece.textOf pieces ++ rest = text ∧
      (gap rest).2 = afterPadding text ∧ afterPadding rest = afterPadding text := by
  have hlossless := (Pattern.spacedMany Form.lineBreak).lossless.afterGap _ _ _ h
  obtain ⟨breaks, hbreaks, rfl⟩ := exists_of_afterGap h
  obtain ⟨hgap, hpadding, hplain⟩ := of_read_breaks hbreaks (isSolid_gap text)
  rw [afterPadding_gap] at hgap hpadding
  refine ⟨?_, hlossless, hgap, hpadding⟩
  rw [Piece.ArePlain, List.forall_mem_cons]
  exact ⟨⟨_, rfl⟩, hplain⟩

/-- Some line breaks, perhaps none, are always read after a gap. -/
theorem exists_read_breaks (text : List Char) : ∃ pieces rest,
    afterGap (Pattern.spacedMany Form.lineBreak).read text = some (pieces, rest) := by
  rw [afterGap, Pattern.read]
  split <;> exact ⟨_, _, rfl⟩

/-- Line breaks are plain padding that begins with one. -/
theorem of_read_lineBreaks {text rest : List Char} {pieces : List (Piece Part)}
    (h : Form.lineBreaks.read text = some (pieces, rest)) :
    (∃ c ∈ text.head?, isLineBreak c = true) ∧ (gap rest).2 = afterPadding text ∧
      Piece.ArePlain pieces := by
  obtain ⟨first, middle, others, hfirst, hothers, rfl⟩ := Pattern.exists_of_read_spaced h
  obtain ⟨hbreak, hpadding, hplain⟩ := of_read_lineBreak hfirst
  obtain ⟨hothersplain, -, hgap, -⟩ := of_read_breaks_afterGap hothers
  refine ⟨hbreak, hgap.trans hpadding, ?_⟩
  rw [Piece.ArePlain, List.forall_mem_append]
  exact ⟨hplain, hothersplain⟩

/-- Line breaks are read where one stands. -/
theorem exists_read_lineBreaks {text : List Char} (h : ∃ c ∈ text.head?, isLineBreak c = true) :
    ∃ pieces rest, Form.lineBreaks.read text = some (pieces, rest) := by
  obtain ⟨c, hhead, hc⟩ := h
  obtain ⟨more, rfl⟩ := List.head?_eq_some_iff.mp hhead
  obtain ⟨⟨first, after⟩, hfirst⟩ := Option.isSome_iff_exists.mp (isSome_read_lineBreak c hc more)
  obtain ⟨others, middle, hothers⟩ := exists_read_breaks after
  refine ⟨first ++ others, middle, ?_⟩
  rw [Form.lineBreaks, Pattern.read_spaced_eq, hfirst, Option.bind_some, hothers, Option.map_some]

end UnitSystems.Grammar
