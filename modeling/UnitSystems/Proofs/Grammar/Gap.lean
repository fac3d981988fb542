import UnitSystems.Proofs.Grammar.Words

/-!
# Blanks between the members of a pattern

A gap ends where neither a blank nor a comment goes on. Where a pattern that begins with a
character of its own can be read, no gap can stand. Items that are written without blanks between
them are therefore read one after the other by a repetition that would allow blanks.
-/

namespace UnitSystems.Grammar

variable {ν : Type}

/-- Texts that no blank and no comment begins. -/
def IsSolid (text : List Char) : Prop :=
  ∀ c ∈ text.head?, isBlank c = false ∧ c ≠ '#'

/-- Exactly the blanks are passed over that stand before a solid text. -/
theorem gap_append_of_isSolid (blanks text : List Char)
    (hblanks : ∀ c ∈ blanks, isBlank c = true) (h : IsSolid text) :
    gap (blanks ++ text) = (blanks, text) := by
  unfold gap
  simp only [List.span_eq_takeWhile_dropWhile, List.takeWhile_append_of_pos hblanks,
    List.dropWhile_append_of_pos hblanks]
  cases text with
  | nil => simp
  | cons c text =>
    obtain ⟨hblank, hcomment⟩ := h c rfl
    simp only [List.takeWhile_cons, List.dropWhile_cons, hblank, Bool.false_eq_true, ↓reduceIte,
      List.append_nil]
    split
    · next heq => exact absurd (List.cons.inj heq).1 hcomment
    · rfl

/-- Nothing is passed over before a solid text. -/
theorem gap_of_isSolid (text : List Char) (h : IsSolid text) : gap text = ([], text) :=
  gap_append_of_isSolid [] text (by simp) h

/-- One blank is passed over before a solid text. -/
theorem gap_blank (text : List Char) (h : IsSolid text) : gap (' ' :: text) = ([' '], text) :=
  gap_append_of_isSolid [' '] text (by simp [isBlank]) h

/-- Nothing at all is a solid text. -/
theorem isSolid_nil : IsSolid [] := by
  simp [IsSolid]

/-- A text is solid when its first character is neither a blank nor the sign of a comment. -/
theorem isSolid_cons (c : Char) (text : List Char) (hblank : isBlank c = false) (hc : c ≠ '#') :
    IsSolid (c :: text) := by
  intro first hfirst
  obtain rfl : c = first := by simpa using hfirst
  exact ⟨hblank, hc⟩

/-- A pattern that advances and refuses blanks and comments is read from solid texts only. -/
theorem Pattern.isSolid_of_read (p : Pattern ν) (hadvances : p.advances = true)
    (hrefuses : [' ', '\t', '#'].all p.refuses = true) (text : List Char) (reading : Reading ν)
    (h : p.read text = some reading) : IsSolid text := by
  have hnil : p.read [] = none := by
    cases hempty : p.read [] with
    | none => rfl
    | some reading => exact absurd (p.length_of_advances hadvances _ _ _ hempty) (Nat.not_lt_zero _)
  cases text with
  | nil => simp [IsSolid]
  | cons c text =>
    have hrefused : p.refuses c = false := by
      cases hc : p.refuses c with
      | false => rfl
      | true =>
        have hread := p.read_append_refused c hc [] text
        rw [List.nil_append, h, hnil] at hread
        contradiction
    simp only [List.all_cons, List.all_nil, Bool.and_true, Bool.and_eq_true] at hrefuses
    apply isSolid_cons
    · by_contra hblank
      simp only [isBlank, Bool.not_eq_false, Bool.or_eq_true, beq_iff_eq] at hblank
      rcases hblank with rfl | rfl <;> simp [hrefused] at hrefuses
    · rintro rfl
      simp [hrefused] at hrefuses

/-- The pieces of items that stand without blanks between them in a repetition with blanks: every
item but the first has the empty gap before it among the pieces. -/
def spacedPieces {α : Type} (pieces : α → List (Piece ν)) : List α → List (Piece ν)
  | [] => []
  | item :: items => pieces item ++ items.flatMap fun i => .plain [] :: pieces i

/-- A repetition with blanks takes items that stand without any, one after the other. -/
theorem Pattern.read_spacedMany {α : Type} (p : Pattern ν) (print : α → List Char)
    (pieces : α → List (Piece ν)) (follows : List Char → Prop) (items : List α) (rest : List Char)
    (hrest : follows rest) (hstop : p.read rest = none)
    (hsolid : ∀ text, follows text → IsSolid text)
    (hfollows : ∀ item ∈ items, ∀ more, follows (print item ++ more))
    (hread : ∀ item ∈ items, ∀ more, follows more →
      p.read (print item ++ more) = some (pieces item, more))
    (hne : ∀ item ∈ items, print item ≠ []) :
    (Pattern.spacedMany p).read (items.flatMap print ++ rest) =
      some (spacedPieces pieces items, rest) := by
  cases items with
  | nil => simp [read, hstop, spacedPieces]
  | cons item items =>
    have htail (i : α) (hi : i ∈ items) : i ∈ item :: items := List.mem_cons_of_mem item hi
    have hmore : follows (items.flatMap print ++ rest) := by
      cases items with
      | nil => exact hrest
      | cons next items =>
        rw [List.flatMap_cons, List.append_assoc]
        exact hfollows next (by simp) _
    have hbound := length_le_flatMap items print fun i hi => hne i (htail i hi)
    have hrounds := rounds_flatMap (afterGap p.read) print (fun i => .plain [] :: pieces i) follows
      items rest hrest (by simp only [afterGap, gap_of_isSolid rest (hsolid rest hrest), hstop,
        Option.map_none])
      (fun i hi => hfollows i (htail i hi))
      (fun i hi more hm => by
        simp only [afterGap, gap_of_isSolid _ (hsolid _ (hfollows i (htail i hi) more)),
          hread i (htail i hi) more hm, Option.map_some])
      (items.flatMap print ++ rest) (by rw [List.length_append]; omega)
    rw [List.flatMap_cons, List.append_assoc, read, hread item List.mem_cons_self _ hmore]
    simp only [hrounds, spacedPieces]

end UnitSystems.Grammar
