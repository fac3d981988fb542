import UnitSystems.Proofs.Grammar.Content
import UnitSystems.Proofs.Grammar.Continuation

/-!
# Space at the end of a line

Blanks and a comment at the end of a line change nothing about what stands on the line. A pattern is
steady when it reads the same content with such space behind the text as without, and leaves what it
leaves with some of the space behind it. Patterns that take neither blanks nor comments are steady,
and a value is, since the white space around it does not count.
-/

namespace UnitSystems.Grammar

/-- Blanks and perhaps a comment, to the end of the text. -/
def IsGap (text : List Char) : Prop :=
  (gap text).2 = []

instance (text : List Char) : Decidable (IsGap text) :=
  inferInstanceAs (Decidable (_ = _))

/-- A gap is passed over character by character. -/
theorem gap_cons (c : Char) (text : List Char) :
    (gap (c :: text)).2 =
      if isBlank c then (gap text).2
      else if c = '#' then text.dropWhile fun c => !isLineBreak c
      else c :: text := by
  by_cases hblank : isBlank c = true
  · rw [if_pos hblank]
    simp only [gap, List.span_eq_takeWhile_dropWhile, List.dropWhile_cons_of_pos hblank]
    split <;> rfl
  · have hdrop := List.dropWhile_cons_of_neg (l := text) hblank
    rw [if_neg hblank]
    simp only [gap, List.span_eq_takeWhile_dropWhile, hdrop]
    by_cases hcomment : c = '#'
    · subst hcomment
      rfl
    · rw [if_neg hcomment]
      split
      · next heq => exact absurd (List.cons.inj heq).1 hcomment
      · rfl

namespace IsGap

variable {space : List Char} (h : IsGap space)

include h

/-- A gap is blanks and then nothing or a comment. -/
theorem exists_parts : ∃ blanks comment, space = blanks ++ comment ∧
    (∀ c ∈ blanks, isBlank c = true) ∧ (∀ c ∈ comment, isLineBreak c = false) ∧
    ∀ c ∈ comment.head?, c = '#' := by
  induction space with
  | nil => exact ⟨[], [], rfl, by simp, by simp, by simp⟩
  | cons c text ih =>
    rw [IsGap, gap_cons] at h
    split at h
    · next hblank =>
      obtain ⟨blanks, comment, rfl, hblanks, hcomment⟩ := ih h
      exact ⟨c :: blanks, comment, rfl, List.forall_mem_cons.mpr ⟨hblank, hblanks⟩, hcomment⟩
    · split at h
      · next hcomment =>
        rw [List.dropWhile_eq_nil_iff] at h
        refine ⟨[], c :: text, rfl, by simp, List.forall_mem_cons.mpr ⟨?_, ?_⟩,
          by simpa using hcomment⟩
        · rw [hcomment]
          rfl
        · exact fun d hd => by simpa using h d hd
      · contradiction

/-- No line breaks in a gap. -/
theorem isLineBreak_eq_false : ∀ c ∈ space, isLineBreak c = false := by
  obtain ⟨blanks, comment, rfl, hblanks, hcomment, -⟩ := h.exists_parts
  refine List.forall_mem_append.mpr ⟨fun c hc => ?_, hcomment⟩
  by_contra hbreak
  have hblank := isBlank_of_isLineBreak c (by simpa using hbreak)
  rw [hblanks c hc] at hblank
  contradiction

/-- A gap before which no gap stands is empty. -/
theorem eq_nil_of_isSolid (hsolid : IsSolid space) : space = [] := by
  rwa [IsGap, gap_of_isSolid space hsolid] at h

/-- A gap is empty or begins with a blank or the sign of a comment. -/
theorem eq_nil_or : space = [] ∨ ∃ c more, space = c :: more ∧ c ∈ [' ', '\t', '#'] := by
  cases space with
  | nil => exact .inl rfl
  | cons c more =>
    refine .inr ⟨c, more, rfl, ?_⟩
    rw [IsGap, gap_cons] at h
    split at h
    · next hblank =>
      simp only [isBlank, Bool.or_eq_true, beq_iff_eq] at hblank
      rcases hblank with rfl | rfl <;> decide
    · split at h
      · next hcomment => simp [hcomment]
      · contradiction

/-- A gap behind a text is passed over with the text, or left with what is left of it. -/
theorem gap_append (text : List Char) :
    (gap (text ++ space)).2 = if (gap text).2 = [] then [] else (gap text).2 ++ space := by
  induction text with
  | nil => exact h
  | cons c text ih =>
    rw [List.cons_append, gap_cons, gap_cons]
    split
    · exact ih
    · split
      · have hspace : space.dropWhile (fun c => !isLineBreak c) = [] :=
          List.dropWhile_eq_nil_iff.mpr fun c hc => by simpa using h.isLineBreak_eq_false c hc
        rw [List.dropWhile_append, hspace]
        simp only [List.isEmpty_iff]
      · simp

/-- A gap is padding, also in a comment. -/
theorem pastPadding_eq_nil (inComment : Bool) : pastPadding inComment space = [] := by
  cases inComment with
  | false => rw [← afterPadding, ← afterPadding_gap, h]; rfl
  | true =>
    rw [← afterPadding_dropComment, List.dropWhile_eq_nil_iff.mpr fun c hc => by
      simpa using h.isLineBreak_eq_false c hc]
    rfl

/-- A gap behind a text is passed over with its padding, or left with what is left of it. -/
theorem pastPadding_append (inComment : Bool) (text : List Char) :
    pastPadding inComment (text ++ space) =
      if pastPadding inComment text = [] then [] else pastPadding inComment text ++ space := by
  induction text generalizing inComment with
  | nil => exact h.pastPadding_eq_nil inComment
  | cons c text ih =>
    rw [List.cons_append, pastPadding, pastPadding]
    split
    · exact ih _
    · split
      · exact ih _
      · split
        · exact ih _
        · simp

end IsGap

/-- A comment is a gap. -/
theorem isGap_comment (comment : List Char) (hcomment : ∀ c ∈ comment, isLineBreak c = false)
    (hhead : ∀ c ∈ comment.head?, c = '#') : IsGap comment := by
  cases comment with
  | nil => rfl
  | cons c text =>
    obtain rfl := hhead c rfl
    rw [IsGap, gap_cons, if_neg (by decide), if_pos rfl, List.dropWhile_eq_nil_iff]
    exact fun d hd => by simp [hcomment d (List.mem_cons_of_mem _ hd)]

/-- A text with a gap behind it. -/
def Trails (text long : List Char) : Prop :=
  ∃ space, IsGap space ∧ long = text ++ space

/-- Nothing is a gap behind a text. -/
theorem Trails.refl (text : List Char) : Trails text text :=
  ⟨[], rfl, (List.append_nil text).symm⟩

/-- What is left after a gap has a gap behind it. -/
theorem Trails.gap {text long : List Char} (h : Trails text long) :
    Trails (gap text).2 (gap long).2 := by
  obtain ⟨space, hspace, rfl⟩ := h
  rw [hspace.gap_append]
  split
  · next hnil =>
    rw [hnil]
    exact .refl []
  · exact ⟨space, hspace, rfl⟩

/-- Two readings with the same content that leave texts in a relation. -/
def Agree (remain : List Char → List Char → Prop) (first second : Reading Part) : Prop :=
  Piece.contentOf first.1 = Piece.contentOf second.1 ∧ remain first.2 second.2

namespace Pattern

/-- A pattern is steady when a gap behind a text changes nothing about the content that is read of
it, and a gap stays behind what is left. -/
def IsSteady (p : Pattern Part) : Prop :=
  ∀ text long, Trails text long → IsSolid text → IsSolid long →
    Option.Rel (Agree Trails) (p.read text) (p.read long)

/-- Patterns that take neither blanks nor comments are steady. -/
theorem isSteady_of_refuses (p : Pattern Part) (h : [' ', '\t', '#'].all p.refuses = true) :
    p.IsSteady := by
  rintro text _ ⟨space, hspace, rfl⟩ - -
  obtain rfl | ⟨c, more, rfl, hc⟩ := hspace.eq_nil_or
  · rw [List.append_nil]
    cases p.read text with
    | none => exact .none
    | some reading => exact .some ⟨rfl, .refl _⟩
  · rw [p.read_append_refused c (List.all_eq_true.mp h c hc)]
    cases p.read text with
    | none => exact .none
    | some reading => exact .some ⟨rfl, _, hspace, rfl⟩

namespace IsSteady

variable {p q : Pattern Part}

/-- A steady pattern is steady behind a gap. -/
theorem afterGap (h : p.IsSteady) {text long : List Char} (htrails : Trails text long) :
    Option.Rel (Agree Trails) (Grammar.afterGap p.read text) (Grammar.afterGap p.read long) := by
  have hread := h _ _ htrails.gap (isSolid_gap text) (isSolid_gap long)
  rw [Grammar.afterGap, Grammar.afterGap]
  generalize p.read (gap text).2 = short, p.read (gap long).2 = other at hread
  cases hread with
  | none => exact .none
  | some hagree => exact .some hagree

/-- Steady patterns are steady one after the other. -/
theorem spaced (hp : p.IsSteady) (hq : q.IsSteady) : (Pattern.spaced p q).IsSteady := by
  intro text long htrails htext hlong
  have hread := hp text long htrails htext hlong
  rw [read_spaced_eq, read_spaced_eq]
  generalize p.read text = short, p.read long = other at hread
  cases hread with
  | none => exact .none
  | @some first second hfirst =>
    have hmore := hq.afterGap hfirst.2
    rw [Option.bind_some, Option.bind_some]
    generalize Grammar.afterGap q.read first.2 = short,
      Grammar.afterGap q.read second.2 = other at hmore
    cases hmore with
    | none => exact .none
    | some hsecond =>
      refine .some ⟨?_, hsecond.2⟩
      rw [Piece.contentOf_append, Piece.contentOf_append, hfirst.1, hsecond.1]

/-- A steady pattern may be missing. -/
theorem optional (hp : p.IsSteady) : (Pattern.optional p).IsSteady := by
  intro text long htrails htext hlong
  have hread := hp text long htrails htext hlong
  rw [read, read]
  generalize p.read text = short, p.read long = other at hread
  cases hread with
  | none => exact .some ⟨rfl, htrails⟩
  | some hagree => exact .some hagree

/-- A branch of a steady pattern is steady. -/
theorem branch (hp : p.IsSteady) (name : Part) : (Pattern.branch name p).IsSteady := by
  intro text long htrails htext hlong
  have hread := hp text long htrails htext hlong
  rw [read, read]
  generalize p.read text = short, p.read long = other at hread
  cases hread with
  | none => exact .none
  | some hagree =>
    refine .some ⟨?_, hagree.2⟩
    simp only [Piece.contentOf, Piece.content, hagree.1]

end IsSteady

end Pattern

/-- A value is one character of a value and all that follow it. -/
theorem read_restOfLine_cons (c : Char) (text : List Char) : Form.restOfLine.read (c :: text) =
    if isValue c then
      some ([.leaf .restOfLine (c :: text.takeWhile isValue)], text.dropWhile isValue)
    else none := by
  cases hc : isValue c <;>
    simp [Form.restOfLine, Form.someOf, Pattern.read, hc, Piece.textOf, Piece.text]

/-- Blanks belong to a value. -/
theorem isValue_of_isBlank (c : Char) (h : isBlank c = true) : isValue c = true := by
  simp only [isBlank, Bool.or_eq_true, beq_iff_eq] at h
  rcases h with rfl | rfl <;> decide

/-- Blanks are white space. -/
theorem isWhiteSpace_of_isBlank (c : Char) (h : isBlank c = true) : Text.isWhiteSpace c = true := by
  simp only [isBlank, Bool.or_eq_true, beq_iff_eq] at h
  rcases h with rfl | rfl <;> decide

/-- A value is steady: it takes the blanks behind it, which do not count, and leaves the comment. -/
theorem isSteady_restOfLine : Form.restOfLine.IsSteady := by
  rintro text _ ⟨space, hspace, rfl⟩ - hlong
  cases text with
  | nil =>
    obtain rfl := hspace.eq_nil_of_isSolid hlong
    exact .none
  | cons c text =>
    rw [List.cons_append, read_restOfLine_cons, read_restOfLine_cons]
    split
    · by_cases hall : text.dropWhile isValue = []
      · obtain ⟨blanks, comment, rfl, hblanks, hcomment, hhead⟩ := hspace.exists_parts
        have htext := List.dropWhile_eq_nil_iff.mp hall
        have hvalues : ∀ c ∈ text ++ blanks, isValue c = true :=
          List.forall_mem_append.mpr ⟨htext, fun c hc => isValue_of_isBlank c (hblanks c hc)⟩
        have hends : comment.takeWhile isValue = [] ∧ comment.dropWhile isValue = comment := by
          cases comment with
          | nil => exact ⟨rfl, rfl⟩
          | cons d comment =>
            obtain rfl := hhead d rfl
            exact ⟨rfl, rfl⟩
        rw [hall, List.takeWhile_eq_self_iff.mpr htext, ← List.append_assoc,
          List.takeWhile_append_of_pos hvalues, List.dropWhile_append_of_pos hvalues, hends.1,
          hends.2, List.append_nil]
        refine .some ⟨?_, comment, isGap_comment comment hcomment hhead, rfl⟩
        have htrim := Text.trim_append (c :: text) blanks fun d hd =>
          isWhiteSpace_of_isBlank d (hblanks d hd)
        rw [List.cons_append] at htrim
        simp only [Piece.contentOf, Piece.content, ↓reduceIte, htrim]
      · obtain ⟨htake, hdrop⟩ := span_append isValue text space hall
        rw [htake, hdrop]
        exact .some ⟨rfl, space, hspace, rfl⟩
    · exact .none

end UnitSystems.Grammar
