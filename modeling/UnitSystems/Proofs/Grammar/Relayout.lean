import UnitSystems.Proofs.Grammar.Spacing

/-!
# Line breaks that are laid out anew

At one line break of a text a gap is put before it and other padding behind it. Two readers, one of
the old and one of the new text, take the same steps: up to the line break the texts are the same
but for the gap, and behind the padding they are the same. A pattern carries its readings over when it
reads the same content of the new text and what is left of the two texts is still so related. It
must not have read the line break inside a quoted text, where nothing may be put.
-/

namespace UnitSystems.Grammar

/-- A line break that is laid out anew: the line break and what stands behind it, before and
afterwards. -/
structure LineEdit where
  old : Char
  after : List Char
  new : Char
  behind : List Char
  isLineBreak_old : isLineBreak old = true
  isLineBreak_new : isLineBreak new = true
  padding : afterPadding behind = afterPadding after

/-- What a text without a gap before it begins with has no gap before it. -/
theorem isSolid_of_append (text more : List Char) (h : IsSolid (text ++ more)) : IsSolid text := by
  cases text with
  | nil => exact isSolid_nil
  | cons c text => exact h

namespace LineEdit

/-- Where two readers stand after the same steps: behind the line break, with the same text left, or
before it. -/
inductive Meets (e : LineEdit) : List Char → List Char → Prop
  | same (text : List Char) : e.Meets text text
  | before (text : List Char) {space : List Char} (hspace : IsGap space) :
      e.Meets (text ++ e.old :: e.after) (text ++ (space ++ e.new :: e.behind))

variable {e : LineEdit}

namespace Meets

variable {left right : List Char} (h : e.Meets left right)

include h

/-- Both readers pass over a gap. -/
theorem gap : e.Meets (Grammar.gap left).2 (Grammar.gap right).2 := by
  cases h with
  | same text => exact .same _
  | @before text space hspace =>
    rw [gap_append_lineBreak e.old e.isLineBreak_old, ← List.append_assoc,
      gap_append_lineBreak e.new e.isLineBreak_new, hspace.gap_append]
    split
    · next hnil =>
      rw [hnil]
      exact .before [] (rfl : IsGap [])
    · rw [List.append_assoc]
      exact .before _ hspace

/-- Both readers pass over padding. -/
theorem afterPadding : e.Meets (Grammar.afterPadding left) (Grammar.afterPadding right) := by
  cases h with
  | same text => exact .same _
  | @before text space hspace =>
    rw [← List.append_assoc, Grammar.afterPadding, Grammar.afterPadding,
      Grammar.pastPadding_append false text e.after e.old e.isLineBreak_old,
      Grammar.pastPadding_append false (text ++ space) e.behind e.new e.isLineBreak_new,
      hspace.pastPadding_append]
    by_cases hnil : pastPadding false text = []
    · rw [if_pos hnil, if_pos hnil, if_pos rfl, e.padding]
      exact .same _
    · rw [if_neg hnil, if_neg hnil, if_neg (List.append_ne_nil_of_left_ne_nil hnil _),
        List.append_assoc]
      exact .before _ hspace

/-- Where nothing is left of the old text, nothing is left of the new one. -/
theorem eq_nil (hleft : left = []) : right = [] := by
  cases h with
  | same text => exact hleft
  | before text hspace =>
    exact absurd hleft (List.append_ne_nil_of_right_ne_nil _ (List.cons_ne_nil _ _))

/-- Where the old line breaks, the new one does. -/
theorem head (hright : IsSolid right) (hleft : ∃ c ∈ left.head?, isLineBreak c = true) :
    ∃ c ∈ right.head?, isLineBreak c = true := by
  cases h with
  | same text => exact hleft
  | @before text space hspace =>
    cases text with
    | nil =>
      obtain rfl := hspace.eq_nil_of_isSolid (isSolid_of_append _ _ hright)
      exact ⟨e.new, rfl, e.isLineBreak_new⟩
    | cons c text => exact hleft

/-- A character of the new text that is no line break stands in the old one as well. -/
theorem exists_cons {c : Char} {more : List Char} (hcons : right = c :: more)
    (hright : IsSolid right) (hc : isLineBreak c = false) :
    ∃ rest, left = c :: rest ∧ e.Meets rest more := by
  cases h with
  | same text => exact ⟨more, hcons, .same more⟩
  | @before text space hspace =>
    cases text with
    | nil =>
      obtain rfl := hspace.eq_nil_of_isSolid (isSolid_of_append _ _ hright)
      obtain rfl : e.new = c := (List.cons.inj hcons).1
      exact absurd e.isLineBreak_new (by rw [hc]; exact Bool.false_ne_true)
    | cons d text =>
      obtain ⟨rfl, rfl⟩ := List.cons.inj hcons
      exact ⟨_, rfl, .before text hspace⟩

end Meets

/-- A line break is outside the quoted texts of pieces that were read from a text. -/
def IsOutside (e : LineEdit) (pieces : List (Piece Part)) (left : List Char) : Prop :=
  ∀ text, left = text ++ e.old :: e.after → (Piece.quotedOf pieces)[text.length]? ≠ some true

namespace IsOutside

variable {first second : List (Piece Part)} {left middle : List Char}

/-- What is outside the quoted texts of pieces is outside those of the first ones. -/
theorem of_append_left (h : e.IsOutside (first ++ second) left) : e.IsOutside first left := by
  intro text htext hquoted
  refine h text htext ?_
  rwa [Piece.quotedOf_append,
    List.getElem?_append_left (List.getElem?_eq_some_iff.mp hquoted).1]

/-- What is outside the quoted texts of pieces is outside those of the other ones. -/
theorem of_append_right (h : e.IsOutside (first ++ second) left)
    (hmiddle : Piece.textOf first ++ middle = left) : e.IsOutside second middle := by
  rintro text rfl hquoted
  refine h (Piece.textOf first ++ text) (by rw [List.append_assoc, hmiddle]) ?_
  rw [Piece.quotedOf_append, List.getElem?_append_right (by
    rw [Piece.length_quotedOf, List.length_append]
    omega), Piece.length_quotedOf, List.length_append, Nat.add_sub_cancel_left]
  exact hquoted

end IsOutside

/-- Two readings with the same content, after which both readers stand at related places once they
have passed over a gap. -/
def Agrees (e : LineEdit) (first second : Reading Part) : Prop :=
  Agree (fun left right => e.Meets (Grammar.gap left).2 (Grammar.gap right).2) first second

end LineEdit

namespace Pattern

/-- A pattern carries its readings over to the new text, where the line break is outside quoted
texts and what is left of the old text is as asked. -/
def Carries (p : Pattern Part) (e : LineEdit) (follows : List Char → Prop) : Prop :=
  ∀ left right, e.Meets left right → IsSolid left → IsSolid right → ∀ reading,
    p.read left = some reading → e.IsOutside reading.1 left → follows reading.2 →
      ∃ other, p.read right = some other ∧ e.Agrees reading other

variable {e : LineEdit} {p q : Pattern Part} {follows : List Char → Prop}

/-- Less is carried over where less may follow. -/
theorem Carries.mono {also : List Char → Prop} (h : p.Carries e follows)
    (himp : ∀ rest, also rest → follows rest) : p.Carries e also :=
  fun left right hmeets hleft hright reading hread houtside hrest =>
    h left right hmeets hleft hright reading hread houtside (himp _ hrest)

/-- A steady pattern that stays on its line is read of the new text as it is of the old one. -/
theorem exists_read_of_isSteady (hline : p.staysOnLine = true) (hsteady : p.IsSteady)
    {left right : List Char} (hmeets : e.Meets left right) (hleft : IsSolid left)
    (hright : IsSolid right) {reading : Reading Part} (hread : p.read left = some reading) :
    ∃ other, p.read right = some other ∧ e.Agrees reading other := by
  cases hmeets with
  | same text => exact ⟨reading, hread, rfl, .same _⟩
  | @before text space hspace =>
    rw [← List.append_assoc] at hright ⊢
    have hshort := hsteady text (text ++ space) ⟨space, hspace, rfl⟩
      (isSolid_of_append _ _ hleft) (isSolid_of_append _ _ hright)
    rw [read_append_lineBreak e.isLineBreak_old p hline] at hread
    rw [read_append_lineBreak e.isLineBreak_new p hline]
    generalize p.read text = short, p.read (text ++ space) = long at hread hshort
    cases hshort with
    | none => contradiction
    | @some short long hagree =>
      obtain rfl := Option.some.inj hread
      obtain ⟨more, hmore, hlong⟩ := hagree.2
      refine ⟨_, rfl, hagree.1, ?_⟩
      simp only [extend, hlong, List.append_assoc]
      exact (LineEdit.Meets.before short.2 hmore).gap

/-- Steady patterns that stay on their line carry all readings over. -/
theorem carries_of_isSteady (hline : p.staysOnLine = true) (hsteady : p.IsSteady) :
    p.Carries e fun _ => True :=
  fun _ _ hmeets hleft hright _ hread _ _ =>
    exists_read_of_isSteady hline hsteady hmeets hleft hright hread

/-- A pattern carries readings over behind a gap. -/
theorem Carries.afterGap (h : p.Carries e follows) {left right : List Char}
    (hmeets : e.Meets (gap left).2 (gap right).2) {reading : Reading Part}
    (hread : Grammar.afterGap p.read left = some reading) (houtside : e.IsOutside reading.1 left)
    (hrest : follows reading.2) :
    ∃ other, Grammar.afterGap p.read right = some other ∧ e.Agrees reading other := by
  obtain ⟨pieces, rest⟩ := reading
  obtain ⟨inner, hinner, rfl⟩ := exists_of_afterGap hread
  have hgap : Piece.textOf ([.plain (gap left).1] : List (Piece Part)) ++ (gap left).2 = left := by
    rw [Piece.textOf, Piece.text, Piece.textOf, List.append_nil, gap_append]
  have houter : e.IsOutside ([.plain (gap left).1] ++ inner) left := houtside
  obtain ⟨other, hother, hagrees⟩ := h _ _ hmeets (isSolid_gap left) (isSolid_gap right) _ hinner
    (houter.of_append_right hgap) hrest
  exact ⟨(.plain (gap right).1 :: other.1, other.2), by rw [Grammar.afterGap, hother]; rfl, hagrees⟩

/-- Patterns carry readings over one after the other. -/
theorem Carries.spaced {between : List Char → Prop} (hp : p.Carries e between)
    (hq : q.Carries e follows)
    (hbetween : ∀ middle reading, Grammar.afterGap q.read middle = some reading →
      follows reading.2 → between middle) : (Pattern.spaced p q).Carries e follows := by
  rintro left right hmeets hleft hright ⟨pieces, rest⟩ hread houtside hrest
  obtain ⟨first, middle, second, hfirst, hsecond, rfl⟩ := exists_of_read_spaced hread
  obtain ⟨⟨pieces, after⟩, hother, hcontent, hafter⟩ := hp left right hmeets hleft hright _ hfirst
    houtside.of_append_left (hbetween middle _ hsecond hrest)
  obtain ⟨⟨more, last⟩, hmore, hcontent', hlast⟩ := hq.afterGap hafter hsecond
    (houtside.of_append_right (p.lossless _ _ _ hfirst)) hrest
  refine ⟨(pieces ++ more, last), ?_, ?_, hlast⟩
  · rw [read_spaced_eq, hother, Option.bind_some, hmore, Option.map_some]
  · rw [Piece.contentOf_append, Piece.contentOf_append]
    exact congrArg₂ _ hcontent hcontent'

/-- A branch that is no quoted text carries over what its pattern does. -/
theorem Carries.branch (h : p.Carries e follows) (name : Part) (hname : name ≠ .string) :
    (Pattern.branch name p).Carries e follows := by
  rintro left right hmeets hleft hright ⟨pieces, rest⟩ hread houtside hrest
  obtain ⟨inner, hinner, rfl⟩ := exists_of_read_branch hread
  have hquoted : Piece.quotedOf [.branch name inner] = Piece.quotedOf inner := by
    rw [Piece.quotedOf, Piece.quoted, Piece.quotedOf, List.append_nil]
    exact hname
  obtain ⟨other, hother, hcontent, hafter⟩ := h left right hmeets hleft hright _ hinner
    (fun text htext => hquoted ▸ houtside text htext) hrest
  refine ⟨([.branch name other.1], other.2), by rw [read, hother]; rfl, ?_, hafter⟩
  simp only [Piece.contentOf, Piece.content]
  exact congrArg (fun content => [Piece.branch name content] ++ []) hcontent

/-- The rounds of a repetition are carried over one after the other, if none can be read of the new
text where they end. -/
theorem Carries.repeats {between : List Char → Prop} (hp : p.Carries e between)
    (hnext : ∀ middle, (p.read (gap middle).2).isSome = true → between middle)
    {left right rest : List Char} {pieces : List (Piece Part)}
    (h : Repeats (Grammar.afterGap p.read) left pieces rest)
    (hmeets : e.Meets (gap left).2 (gap right).2) (houtside : e.IsOutside pieces left)
    (hrest : between rest)
    (hstop : ∀ last, e.Meets (gap rest).2 (gap last).2 → p.read (gap last).2 = none) :
    ∃ others last, Repeats (Grammar.afterGap p.read) right others last ∧
      e.Agrees (pieces, rest) (others, last) := by
  induction h generalizing right with
  | @stop text =>
    refine ⟨[], right, .stop ?_, rfl, hmeets⟩
    rw [Grammar.afterGap, hstop right hmeets, Option.map_none]
  | @round text middle rest first more hround hmore ih =>
    have hmiddle : between middle := by
      cases hmore with
      | stop => exact hrest
      | round hnext' =>
        obtain ⟨inner, hinner, -⟩ := exists_of_afterGap hnext'
        exact hnext middle (Option.isSome_of_eq_some hinner)
    obtain ⟨⟨others, after⟩, hother, hcontent, hafter⟩ := hp.afterGap hmeets hround
      houtside.of_append_left hmiddle
    obtain ⟨later, last, hrepeats, hcontent', hlast⟩ := ih hafter
      (houtside.of_append_right (p.lossless.afterGap _ _ _ hround)) hrest hstop
    refine ⟨others ++ later, last, .round hother hrepeats, ?_, hlast⟩
    rw [Piece.contentOf_append, Piece.contentOf_append]
    exact congrArg₂ _ hcontent hcontent'

/-- A repetition carries over what its rounds do. -/
theorem Carries.spacedMany {between : List Char → Prop} (hadvances : p.advances = true)
    (hp : p.Carries e between)
    (hnext : ∀ middle, (p.read (gap middle).2).isSome = true → between middle)
    (hfollows : ∀ rest, follows rest → between rest)
    (hstop : ∀ rest last, follows rest → e.Meets (gap rest).2 (gap last).2 →
      p.read (gap last).2 = none) : (Pattern.spacedMany p).Carries e follows := by
  rintro left right hmeets hleft hright ⟨pieces, rest⟩ hread houtside hrest
  obtain ⟨-, rfl, rfl⟩ | ⟨first, middle, more, hfirst, hrepeats, rfl⟩ :=
    (p.read_spacedMany_iff hadvances).mp hread
  · have hnone := hstop _ right hrest hmeets.gap
    rw [gap_of_isSolid right hright] at hnone
    exact ⟨([], right), (p.read_spacedMany_iff hadvances).mpr (.inl ⟨hnone, rfl, rfl⟩), rfl,
      hmeets.gap⟩
  · have hmiddle : between middle := by
      cases hrepeats with
      | stop => exact hfollows _ hrest
      | round hround =>
        obtain ⟨inner, hinner, -⟩ := exists_of_afterGap hround
        exact hnext middle (Option.isSome_of_eq_some hinner)
    obtain ⟨⟨others, after⟩, hother, hcontent, hafter⟩ := hp left right hmeets hleft hright _ hfirst
      houtside.of_append_left hmiddle
    obtain ⟨later, last, hrepeats, hcontent', hlast⟩ := hp.repeats hnext hrepeats hafter
      (houtside.of_append_right (p.lossless _ _ _ hfirst)) (hfollows _ hrest)
      fun last => hstop rest last hrest
    refine ⟨(others ++ later, last), (p.read_spacedMany_iff hadvances).mpr
      (.inr ⟨_, _, _, hother, hrepeats, rfl⟩), ?_, hlast⟩
    rw [Piece.contentOf_append, Piece.contentOf_append]
    exact congrArg₂ _ hcontent hcontent'

end Pattern

/-- Plain pieces have no content. -/
theorem contentOf_plain (pieces : List (Piece Part)) (h : Piece.ArePlain pieces) :
    Piece.contentOf pieces = [] := by
  induction pieces with
  | nil => rfl
  | cons piece pieces ih =>
    obtain ⟨⟨text, rfl⟩, hpieces⟩ := List.forall_mem_cons.mp h
    exact ih hpieces

section

variable (e : LineEdit)

/-- Line breaks are passed over with all the padding in both texts. -/
theorem carries_breaks : (Pattern.spacedMany Form.lineBreak).Carries e fun _ => True := by
  rintro left right hmeets hleft hright ⟨pieces, rest⟩ hread - -
  obtain ⟨hgap, -, hplain⟩ := of_read_breaks hread hleft
  obtain ⟨others, last, hother⟩ : ∃ others last,
      (Pattern.spacedMany Form.lineBreak).read right = some (others, last) := by
    rw [Pattern.read]
    split <;> exact ⟨_, _, rfl⟩
  obtain ⟨hgap', -, hplain'⟩ := of_read_breaks hother hright
  refine ⟨(others, last), hother, ?_, ?_⟩
  · rw [contentOf_plain _ hplain, contentOf_plain _ hplain']
  · show e.Meets (gap rest).2 (gap last).2
    rw [hgap, hgap']
    exact hmeets.afterPadding

/-- Where the line breaks, both texts have line breaks and padding. -/
theorem carries_lineBreaks : Form.lineBreaks.Carries e fun _ => True := by
  rintro left right hmeets hleft hright ⟨pieces, rest⟩ hread - -
  obtain ⟨hbreak, hgap, hplain⟩ := of_read_lineBreaks hread
  obtain ⟨others, last, hother⟩ := exists_read_lineBreaks (hmeets.head hright hbreak)
  obtain ⟨-, hgap', hplain'⟩ := of_read_lineBreaks hother
  refine ⟨(others, last), hother, ?_, ?_⟩
  · rw [contentOf_plain _ hplain, contentOf_plain _ hplain']
  · show e.Meets (gap rest).2 (gap last).2
    rw [hgap, hgap']
    exact hmeets.afterPadding

/-- A quoted text is carried over when the line break is outside it. -/
theorem carries_string : Form.string.Carries e fun _ => True := by
  rintro left right hmeets hleft hright ⟨pieces, rest⟩ hread houtside -
  cases hmeets with
  | same text => exact ⟨_, hread, rfl, .same _⟩
  | @before text space hspace =>
    obtain ⟨inner, -, rfl⟩ := Pattern.exists_of_read_branch hread
    have hlossless := Form.string.lossless _ _ _ hread
    have hquoted : Piece.quotedOf [.branch .string inner] =
        (Piece.textOf inner).map fun _ => true := by
      rw [Piece.quotedOf, Piece.quoted, Piece.quotedOf, List.append_nil]
    have htaken : Piece.textOf [.branch .string inner] = Piece.textOf inner := by
      rw [Piece.textOf, Piece.text, Piece.textOf, List.append_nil]
    -- the line break is not among the characters that the quoted text takes
    have hlength : (Piece.textOf inner).length ≤ text.length := by
      by_contra hlt
      refine houtside text rfl ?_
      rw [hquoted, List.getElem?_map, List.getElem?_eq_getElem (Nat.lt_of_not_le hlt),
        Option.map_some]
    rw [htaken] at hlossless
    obtain ⟨left, rfl⟩ : Piece.textOf inner <+: text :=
      List.prefix_of_prefix_length_le ⟨rest, hlossless⟩ (List.prefix_append _ _) hlength
    rw [List.append_assoc, List.append_cancel_left_eq] at hlossless
    obtain rfl := hlossless
    have hother := read_string_of_read hread (left ++ (space ++ e.new :: e.behind))
    rw [htaken] at hother
    rw [List.append_assoc]
    exact ⟨(_, _), hother, rfl, (LineEdit.Meets.before left hspace).gap⟩

end

end UnitSystems.Grammar
