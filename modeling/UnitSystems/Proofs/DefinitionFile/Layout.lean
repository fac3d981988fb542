import Mathlib.Data.String.Basic
import UnitSystems.Proofs.DefinitionFile.Files

/-!
# The layout of a system

The text of a system is its declaration, then directives behind line breaks, then padding. The text
of a directive is read alike whatever directive follows it, so every directive means what it means
on its own, and the definition of the system is what its directives set.
-/

namespace UnitSystems

open Grammar

/-- The directives that a text is read as: one, if it is the text of a directive. -/
def Directive.inText (text : List Char) : List Directive :=
  ((Form.directive.read text).map fun reading => reading.1.filterMap ofPiece?).getD []

namespace Grammar

/-- A text that a pattern reads up to a gap. -/
def Fills (p : Pattern Part) (text : List Char) : Prop :=
  (p.read text).map (fun reading => (gap reading.2).2) = some []

instance (p : Pattern Part) (text : List Char) : Decidable (Fills p text) :=
  inferInstanceAs (Decidable (_ = _))

/-- The reading of a text that a pattern fills. -/
theorem Fills.exists_read {p : Pattern Part} {text : List Char} (h : Fills p text) :
    ∃ pieces rest, p.read text = some (pieces, rest) ∧ (gap rest).2 = [] := by
  obtain ⟨⟨pieces, rest⟩, hread, hrest⟩ := Option.map_eq_some_iff.mp h
  exact ⟨pieces, rest, hread, hrest⟩

/-- A text that is empty or begins with a line break. -/
def BreaksLine (text : List Char) : Prop :=
  ∀ c ∈ text.head?, isLineBreak c = true

/-- Whether a text is made of blanks, line breaks and comments, given whether it begins in a
comment. The last comment must have ended. -/
def isPadding (inComment : Bool) : List Char → Bool
  | [] => !inComment
  | c :: text =>
    if inComment then isPadding (!isLineBreak c) text
    else if isBlank c || isLineBreak c then isPadding false text
    else c == '#' && isPadding true text

/-- Padding before a text is passed over. -/
theorem pastPadding_append_of_isPadding (inComment : Bool) (text more : List Char)
    (h : isPadding inComment text = true) :
    pastPadding inComment (text ++ more) = afterPadding more := by
  induction text generalizing inComment with
  | nil =>
    obtain rfl : inComment = false := by simpa [isPadding] using h
    rfl
  | cons c text ih =>
    rw [isPadding] at h
    rw [List.cons_append, pastPadding]
    split at h
    · next hcomment => rw [if_pos hcomment, ih _ h]
    · next hcomment =>
      rw [if_neg hcomment]
      split at h
      · next hblank => rw [if_pos hblank, ih _ h]
      · next hblank =>
        rw [Bool.and_eq_true, beq_iff_eq] at h
        rw [if_neg hblank, if_pos h.1, ih _ h.2]

/-- A line break, and perhaps more padding after it. -/
def IsSeparator (text : List Char) : Prop :=
  text.head?.any isLineBreak = true ∧ isPadding false text = true

instance (text : List Char) : Decidable (IsSeparator text) :=
  inferInstanceAs (Decidable (_ ∧ _))

/-- A separator before a text is passed over. -/
theorem IsSeparator.afterPadding_append {text : List Char} (h : IsSeparator text)
    (more : List Char) : afterPadding (text ++ more) = afterPadding more :=
  pastPadding_append_of_isPadding false text more h.2

/-- What follows a separator does not change how it begins. -/
theorem IsSeparator.head {text : List Char} (h : IsSeparator text) (more : List Char) :
    ∃ c ∈ (text ++ more).head?, isLineBreak c = true := by
  obtain ⟨c, hhead, hc⟩ := (Option.any_eq_true _ _).mp h.1
  obtain ⟨rest, rfl⟩ := List.head?_eq_some_iff.mp hhead
  exact ⟨c, rfl, hc⟩

/-- A separator breaks the line, whatever follows it. -/
theorem IsSeparator.breaksLine {text : List Char} (h : IsSeparator text) (more : List Char) :
    BreaksLine (text ++ more) := by
  obtain ⟨c, hhead, hc⟩ := h.head more
  intro d hd
  rw [hhead] at hd
  exact Option.some.inj hd ▸ hc

/-- A text at the end of a line is nothing or a line break and more. -/
theorem BreaksLine.eq_or {text : List Char} (h : BreaksLine text) :
    text = [] ∨ ∃ c more, isLineBreak c = true ∧ text = c :: more := by
  cases text with
  | nil => exact .inl rfl
  | cons c more => exact .inr ⟨c, more, h c rfl, rfl⟩

/-- A gap ends at the end of the line. -/
theorem BreaksLine.gap_append {before more : List Char} (h : BreaksLine more)
    (hbefore : (gap before).2 = []) : (gap (before ++ more)).2 = more := by
  obtain rfl | ⟨c, more, hc, rfl⟩ := h.eq_or
  · rw [List.append_nil, hbefore]
  · rw [gap_append_lineBreak c hc, hbefore, List.nil_append]

/-- To a pattern that stays on its line, the text ends there. -/
theorem BreaksLine.read_append {more : List Char} (h : BreaksLine more) {p : Pattern Part}
    (hp : p.staysOnLine = true) (text : List Char) :
    p.read (text ++ more) = (p.read text).map (extend more) := by
  obtain rfl | ⟨c, more, hc, rfl⟩ := h.eq_or
  · cases hread : p.read text <;> simp [extend, hread]
  · exact Pattern.read_append_lineBreak hc p hp text more

/-- A word of definition files begins with no padding. -/
theorem Stands.afterPadding {word : String} {text : List Char} (h : Stands word text)
    (hword : word ∈ keywords) : Grammar.afterPadding text = text := by
  obtain ⟨⟨_, rest⟩, hread⟩ := Option.isSome_iff_exists.mp h
  obtain ⟨rfl, -⟩ := Pattern.of_read_word ((read_wholeWord_iff _ _ _ _).mp hread).1
  obtain ⟨c, more, heq, hblank, hcomment, hbreak, -⟩ := keywords_start word hword
  rw [heq]
  simp [pastPadding, hblank, hcomment, hbreak]

/-- A directive begins with no padding. -/
theorem afterPadding_of_read_directive {text : List Char} {reading : Reading Part}
    (h : Form.directive.read text = some reading) : afterPadding text = text := by
  obtain ⟨form, hform, hread⟩ := (read_directive_iff text reading).mp h
  exact (stands_of_read_form form hform text reading hread).afterPadding
    (mem_keywords_of_form form hform)

/-- The text of a directive is read alike before the end of the text and before the next
declaration. -/
theorem read_directive_append {text rest more : List Char} {pieces : List (Piece Part)}
    (hread : Form.directive.read text = some (pieces, rest)) (hrest : (gap rest).2 = [])
    (hmore : BreaksLine more) (hnext : EndsOr Form.keyword (afterPadding more)) :
    Form.directive.read (text ++ more) = some (pieces, rest ++ more) := by
  obtain rfl | ⟨c, more, hc, rfl⟩ := hmore.eq_or
  · rwa [List.append_nil, List.append_nil]
  · have hsolid : IsSolid text :=
      afterPadding_of_read_directive hread ▸ isSolid_afterPadding text
    rw [afterPadding, pastPadding_lineBreak _ c more hc] at hnext
    refine keeps_directive hc hnext text pieces rest hsolid hread (.inl ?_)
    rw [← afterPadding_gap, hrest]
    rfl

/-- Plain pieces hold no directive. -/
theorem directives_plain (pieces : List (Piece Part)) (h : Piece.ArePlain pieces) :
    pieces.filterMap Directive.ofPiece? = [] := by
  rw [List.filterMap_eq_nil_iff]
  intro piece hpiece
  obtain ⟨blanks, rfl⟩ := h piece hpiece
  rfl

/-- The texts of the directives below a declaration: each stands behind a separator, and nothing but
padding behind the last one. -/
inductive HoldsLines : List Char → List (List Char) → Prop
  | done {text : List Char} (hbreaks : BreaksLine text) (hends : afterPadding text = []) :
      HoldsLines text []
  | more {separator directive rest : List Char} {directives : List (List Char)}
      (hseparator : IsSeparator separator) (hdirective : Fills Form.directive directive)
      (hrest : HoldsLines rest directives) :
      HoldsLines (separator ++ (directive ++ rest)) (directive :: directives)

namespace HoldsLines

variable {text : List Char} {directives : List (List Char)}

/-- What stands below a declaration begins with a line break. -/
theorem breaksLine (h : HoldsLines text directives) : BreaksLine text := by
  cases h with
  | done hbreaks => exact hbreaks
  | more hseparator => exact hseparator.breaksLine _

/-- Below a declaration stands another directive, or nothing but padding. -/
theorem endsOr (h : HoldsLines text directives) :
    EndsOr Form.keyword (afterPadding text) := by
  induction h with
  | done _ hends => exact .inl hends
  | more hseparator hdirective hrest ih =>
    obtain ⟨pieces, left, hread, hleft⟩ := hdirective.exists_read
    have hlater := read_directive_append hread hleft hrest.breaksLine ih
    rw [hseparator.afterPadding_append, afterPadding_of_read_directive hlater]
    exact .inr (isSome_read_keyword_of_directive _ _ hlater)

/-- The lines below a declaration are read one after the other, each as its own directive. -/
theorem exists_repeats (h : HoldsLines text directives) (before : List Char)
    (hbefore : (gap before).2 = []) :
    ∃ pieces rest, Repeats (afterGap line.read) (before ++ text) pieces rest ∧
      afterPadding rest = [] ∧
      pieces.filterMap Directive.ofPiece? = directives.flatMap Directive.inText := by
  induction h generalizing before with
  | @done text hbreaks hends =>
    have hgap := hbreaks.gap_append hbefore
    refine ⟨[], before ++ text, .stop ?_, ?_, rfl⟩
    · rw [afterGap, hgap, read_line_of_endsOr (.inl hends), Option.map_none]
    · rw [← afterPadding_gap, hgap, hends]
  | @more separator directive rest directives hseparator hdirective hrest ih =>
    obtain ⟨pieces, left, hread, hleft⟩ := hdirective.exists_read
    have hlater := read_directive_append hread hleft hrest.breaksLine hrest.endsOr
    have hgap := (hseparator.breaksLine (directive ++ rest)).gap_append hbefore
    obtain ⟨plain, hplain, hline⟩ := exists_read_line (hseparator.head (directive ++ rest))
      (by rw [hseparator.afterPadding_append, afterPadding_of_read_directive hlater, hlater])
    -- what the directive leaves is a gap, which the next round passes over
    obtain ⟨more, last, hrepeats, hlast, hmore⟩ := ih left hleft
    have hround : afterGap line.read (before ++ (separator ++ (directive ++ rest))) = some
        (.plain (gap (before ++ (separator ++ (directive ++ rest)))).1 :: (plain ++ pieces),
          left ++ rest) := by
      rw [afterGap, hgap, hline, Option.map_some]
    refine ⟨_, last, .round hround hrepeats, hlast, ?_⟩
    rw [List.cons_append, List.filterMap_cons_none rfl, List.append_assoc, List.filterMap_append,
      List.filterMap_append, directives_plain plain hplain, hmore, List.flatMap_cons,
      Directive.inText, hread]
    rfl

end HoldsLines

end Grammar

/-- The text of one system, taken apart: its declaration, the texts of its directives, each with the
line breaks before it, and what stands after the last one. -/
structure SystemLayout where
  declaration : List Char
  lines : List (List Char × List Char)
  ending : List Char

namespace SystemLayout

/-- The text that was taken apart. -/
def text (layout : SystemLayout) : List Char :=
  layout.declaration ++
    (layout.lines.flatMap (fun line => line.1 ++ line.2) ++ layout.ending)

/-- A layout whose parts are what they stand for. -/
structure IsSound (layout : SystemLayout) : Prop where
  declaration : Fills Form.systemName layout.declaration
  separators : ∀ line ∈ layout.lines, IsSeparator line.1
  directives : ∀ line ∈ layout.lines, Fills Form.directive line.2
  breaks : BreaksLine layout.ending
  ends : afterPadding layout.ending = []

/-- The directives of a layout. -/
def directives (layout : SystemLayout) : List Directive :=
  (layout.lines.map (·.2)).flatMap Directive.inText

/-- The name of the system of a layout. -/
def name (layout : SystemLayout) : String :=
  Directive.leafString .identifier ((branch? .systemName
    (((Form.systemName.read layout.declaration).map (·.1)).getD [])).getD [])

/-- The lines of a sound layout stand below its declaration. -/
theorem IsSound.holdsLines {layout : SystemLayout} (h : layout.IsSound) :
    HoldsLines (layout.lines.flatMap (fun line => line.1 ++ line.2) ++ layout.ending)
      (layout.lines.map (·.2)) := by
  obtain ⟨declaration, lines, ending⟩ := layout
  obtain ⟨-, hseparators, hdirectives, hbreaks, hends⟩ := h
  dsimp only at hseparators hdirectives hbreaks hends ⊢
  induction lines with
  | nil => exact .done hbreaks hends
  | cons first lines ih =>
    obtain ⟨hseparator, hseparators⟩ := List.forall_mem_cons.mp hseparators
    obtain ⟨hdirective, hdirectives⟩ := List.forall_mem_cons.mp hdirectives
    have hlines := HoldsLines.more hseparator hdirective (ih hseparators hdirectives)
    simpa only [List.flatMap_cons, List.map_cons, List.append_assoc] using hlines

/-- A sound layout is read as one system with its name and its directives. -/
theorem IsSound.exists_read {layout : SystemLayout} (h : layout.IsSound) :
    ∃ inside rest, Form.system.read layout.text = some ([.branch .system inside], rest) ∧
      afterPadding rest = [] ∧
      Directive.leafString .identifier ((branch? .systemName inside).getD []) = layout.name ∧
      inside.filterMap Directive.ofPiece? = layout.directives := by
  obtain ⟨pieces, left, hname, hleft⟩ := h.declaration.exists_read
  obtain ⟨inner, -, rfl⟩ := Pattern.exists_of_read_branch hname
  obtain ⟨lines, last, hrepeats, hlast, hdirectives⟩ := h.holdsLines.exists_repeats left hleft
  -- a system without directives takes the gap before its first line all the same
  have hbelow : ∃ parts rest, afterGap (Pattern.spacedMany line).read (left ++
      (layout.lines.flatMap (fun line => line.1 ++ line.2) ++ layout.ending)) = some (parts, rest) ∧
      afterPadding rest = [] ∧ parts.filterMap Directive.ofPiece? = layout.directives := by
    obtain hread | ⟨rfl, rfl, hread⟩ := hrepeats.afterGap_spacedMany (p := line) (by decide)
    · exact ⟨lines, last, hread, hlast, hdirectives⟩
    · exact ⟨_, _, hread, by rw [afterPadding_gap, hlast], hdirectives⟩
  obtain ⟨parts, rest, hread, hrest, hparts⟩ := hbelow
  have hdeclaration := h.holdsLines.breaksLine.read_append (p := Form.systemName) (by decide)
    layout.declaration
  rw [hname, Option.map_some, extend] at hdeclaration
  refine ⟨.branch .systemName inner :: parts, rest, ?_, hrest, ?_, hparts⟩
  · refine Pattern.read_branch Part.system _ _ _ _ ?_
    rw [text, Pattern.read_spaced_eq, hdeclaration, Option.bind_some]
    show (afterGap (Pattern.spacedMany line).read _).map _ = _
    rw [hread]
    rfl
  · rw [name, hname]
    rfl

/-- A sound layout holds one system, with its name and its directives. -/
theorem IsSound.exists_system {layout : SystemLayout} (h : layout.IsSound) :
    ∃ system, HoldsSystems {} layout.text [system] ∧ system.name = layout.name ∧
      system.directives.map (·.2) = layout.directives := by
  obtain ⟨inside, rest, hread, hrest, hname, hdirectives⟩ := h.exists_read
  have hpadding : afterPadding ([] ++ layout.text) = layout.text :=
    (stands_of_read_system hread).afterPadding (by decide)
  have hholds : HoldsSystems {} ([] ++ layout.text) [SystemText.ofParts {} inside] :=
    .more hpadding hread (.done hrest)
  exact ⟨_, hholds, hname, (map_directivesOf _ inside).trans hdirectives⟩

/-- The text of a sound layout is accepted exactly when it is not too large, its directives can be
applied and none stands twice that must not. Its definition has what the directives set. -/
theorem IsSound.exists_parse_iff {layout : SystemLayout} (h : layout.IsSound) :
    ∃ span, ∀ source limits ds,
      DefinitionFile.parse (String.ofList layout.text) source limits = .ok ds ↔
        String.utf8Len layout.text ≤ limits.maxDefinitionBytes ∧
          (∀ directive ∈ layout.directives, directive.IsApplicable) ∧
          (Directive.singleWords layout.directives).Nodup ∧
          ds = [{ layout.directives.foldl Directive.setIn { name := layout.name } with
            source := some (source.getD DefinitionFile.unnamedSource), span := some span }] := by
  obtain ⟨system, hholds, hname, hdirectives⟩ := h.exists_system
  have hunique (found : List SystemText) (hfound : HoldsSystems {} layout.text found) :
      found = [system] :=
    Except.ok.inj (((systems_eq_ok_iff _ "" _).mpr hfound).symm.trans
      ((systems_eq_ok_iff _ "" _).mpr hholds))
  refine ⟨system.span, fun source limits ds => ?_⟩
  rw [parse_eq_ok_iff, String.utf8ByteSize_ofList, String.toList_ofList, ← hname, ← hdirectives]
  refine and_congr_right fun _ => ⟨?_, ?_⟩
  · rintro ⟨found, hfound, hds⟩
    obtain rfl := hunique found hfound
    obtain ⟨d, others, hd, hothers, rfl⟩ := (ofTexts_cons_eq_ok_iff _ _ _ _).mp hds
    obtain rfl : others = [] := (Except.ok.inj hothers).symm
    obtain ⟨happlicable, hnodup, rfl⟩ := (ofText_eq_ok_iff _ _ _).mp hd
    exact ⟨happlicable, hnodup, rfl⟩
  · rintro ⟨happlicable, hnodup, rfl⟩
    exact ⟨_, hholds, (ofTexts_cons_eq_ok_iff _ _ _ _).mpr
      ⟨_, [], (ofText_eq_ok_iff _ _ _).mpr ⟨happlicable, hnodup, rfl⟩, rfl, rfl⟩⟩

end SystemLayout

end UnitSystems
