import UnitSystems.Proofs.DefinitionFile.Systems
import UnitSystems.Proofs.Grammar.Continuation
import UnitSystems.Proofs.Grammar.Keywords

/-!
# Declarations that further lines follow

A list goes on after a comma, but never past the word of the next declaration, which is no item. So
a directive is read just so before any further directives, and a system before any further systems,
whatever their last line ends with.
-/

namespace UnitSystems.Grammar

/-- Texts that are at their end or go on with a pattern. -/
def EndsOr (p : Pattern Part) (text : List Char) : Prop :=
  text = [] ∨ (p.read text).isSome = true

variable {c : Char} (hc : isLineBreak c = true) {more : List Char}

/-- Where a system begins, a keyword stands. -/
theorem EndsOr.keyword {text : List Char}
    (h : EndsOr (Form.declarationWord .systemWord "system") text) : EndsOr Form.keyword text := by
  refine h.imp_right fun hsystem => ?_
  exact ((isSome_read_declarationWord_iff _ _ _).mp hsystem).isSome_read_keyword (by decide)

include hc

/-- A text goes on with a pattern after its padding when a longer one does. -/
theorem EndsOr.append {p : Pattern Part} (hp : p.staysOnLine = true) {text : List Char}
    (htext : EndsOr p (afterPadding text)) (hmore : EndsOr p (afterPadding more)) :
    EndsOr p (afterPadding (text ++ c :: more)) := by
  rw [afterPadding, pastPadding_append false text more c hc]
  split
  · exact hmore
  · next hne =>
    refine .inr ?_
    rw [Pattern.read_append_lineBreak hc p hp, Option.isSome_map]
    exact htext.resolve_left hne

/-- One more item of a list is kept as the item is. -/
theorem keeps_nextItem {item : Pattern Part} (hadvances : item.advances = true)
    (hitem : item.Keeps (fun _ => True) (c :: more)) :
    (nextItem item).Keeps (fun _ => True) (c :: more) :=
  (Pattern.keeps_of_staysOnLine hc (by decide) more).spaced hc
    ((keeps_breaks hc more).spaced_of_advances hc hadvances hitem)

omit hc in
/-- No further item can be read where the text ends or the next declaration begins. -/
theorem read_nextItem_eq_none {item : Pattern Part}
    (hnone : ∀ text, EndsOr Form.keyword text → item.read text = none) (text : List Char)
    (h : EndsOr Form.keyword (afterPadding text)) : (nextItem item).read (',' :: text) = none := by
  obtain ⟨pieces, rest, hbreaks⟩ := exists_read_breaks text
  obtain ⟨-, -, hrest, -⟩ := of_read_breaks_afterGap hbreaks
  obtain ⟨inner, hinner, -⟩ := exists_of_afterGap hbreaks
  have hitem : afterGap item.read rest = none := by
    rw [afterGap, hrest, hnone _ h, Option.map_none]
  rw [nextItem, Pattern.read_spaced_eq]
  show ((afterGap (Pattern.spaced (.spacedMany Form.lineBreak) item).read text).map _) = none
  rw [afterGap, Pattern.read_spaced_eq, hinner, Option.bind_some, hitem]
  rfl

omit hc in
/-- A further item begins with a comma. -/
theorem read_nextItem_of_ne (item : Pattern Part) (d : Char) (hd : d ≠ ',') (text : List Char) :
    (nextItem item).read (d :: text) = none :=
  Pattern.read_spaced_eq_none _ _ _
    (by simp [Form.text, Pattern.read, List.isPrefixOf?, hd.symm])

/-- No further item can be read behind a list that the end of the text or the next declaration
follows. -/
theorem read_nextItem_append {item : Pattern Part}
    (hnone : ∀ text, EndsOr Form.keyword text → item.read text = none)
    (hmore : EndsOr Form.keyword (afterPadding more)) {text rest : List Char}
    {pieces : List (Piece Part)}
    (hread : (Pattern.optional (Form.text ",")).read text = some (pieces, rest))
    (hrest : EndsOr Form.keyword (afterPadding rest)) :
    (nextItem item).read (text ++ c :: more) = none := by
  cases text with
  | nil =>
    apply read_nextItem_of_ne
    rintro rfl
    contradiction
  | cons d text =>
    by_cases hd : d = ','
    · subst hd
      obtain rfl : text = rest := (Prod.mk.inj (Option.some.inj hread)).2
      exact read_nextItem_eq_none hnone _ (hrest.append hc (by decide) hmore)
    · exact read_nextItem_of_ne item d hd _

/-- A list is kept before the end of the text and before the next declaration. -/
theorem keeps_commaList {item : Pattern Part} (hadvances : item.advances = true)
    (hitem : item.Keeps (fun _ => True) (c :: more))
    (hnone : ∀ text, EndsOr Form.keyword text → item.read text = none)
    (hmore : EndsOr Form.keyword (afterPadding more)) :
    (Form.commaList item).Keeps (fun rest => EndsOr Form.keyword (afterPadding rest))
      (c :: more) := by
  refine hitem.spaced hc ?_
  intro text pieces rest hsolid hread hrest
  obtain ⟨others, middle, last, hothers, hlast, rfl⟩ := Pattern.exists_of_read_spaced hread
  obtain ⟨inner, hinner, -⟩ := exists_of_afterGap hlast
  have hkept := Pattern.read_spacedMany_append (p := nextItem item) hc rfl hsolid
    ((keeps_nextItem hc hadvances hitem).mono fun _ _ => trivial)
    (fun _ => read_nextItem_append hc hnone hmore hinner hrest) hothers
  have hoptional := (Pattern.keeps_of_staysOnLine hc (by decide) more).afterGap hc hlast trivial
  rw [Pattern.read_spaced_eq]
  show Option.bind ((Pattern.spacedMany (nextItem item)).read (text ++ c :: more)) _ = _
  rw [hkept, Option.bind_some, hoptional, Option.map_some]

/-- A list of identifiers is kept before the end of the text and before the next declaration. -/
theorem keeps_identifierList (hmore : EndsOr Form.keyword (afterPadding more)) :
    Form.identifierList.Keeps (fun rest => EndsOr Form.keyword (afterPadding rest))
      (c :: more) := by
  refine (keeps_commaList hc (by decide) (Pattern.keeps_of_staysOnLine hc (by decide) more) ?_
    hmore).branch _
  rintro text (rfl | hkeyword)
  · rfl
  · exact read_identifier_of_keyword text hkeyword

omit hc in
/-- A symbol without quotes begins with none, so no quoted text is read where it stands. -/
theorem read_string_of_read_bareSymbol {text : List Char} {reading : Reading Part}
    (h : Form.bareSymbol.read text = some reading) : Form.string.read text = none := by
  obtain ⟨pieces, rest⟩ := reading
  obtain ⟨_, hinner, -⟩ := Pattern.exists_of_read_leaf h
  obtain ⟨_, middle, _, hahead, hchars, -⟩ := Pattern.exists_of_read_joined hinner
  obtain ⟨-, rfl⟩ := Pattern.of_read_notAhead hahead
  obtain ⟨_, _, _, hfirst, -, -⟩ := Pattern.exists_of_read_joined hchars
  obtain ⟨d, hd, rfl, -⟩ := Pattern.exists_of_read_one hfirst
  have hquote : '"' ≠ d := by
    rintro rfl
    contradiction
  simp [Form.string, Form.text, Pattern.read, List.isPrefixOf?, hquote]

/-- A symbol is kept before a line break. -/
theorem keeps_symbol (more : List Char) : Form.symbol.Keeps (fun _ => True) (c :: more) := by
  refine Pattern.Keeps.branch ?_ _
  intro text pieces rest hsolid hread _
  cases hstring : Form.string.read text with
  | some reading =>
    rw [Pattern.read_either_left _ _ _ _ hstring] at hread
    obtain rfl := Option.some.inj hread
    exact Pattern.read_either_left _ _ _ _ (keeps_string _ _ _ _ hsolid hstring trivial)
  | none =>
    rw [Pattern.read_either_right _ _ _ hstring] at hread
    have hbare := Pattern.keeps_of_staysOnLine hc (by decide) more text pieces rest hsolid hread
      trivial
    rw [Pattern.read_either_right _ _ _ (read_string_of_read_bareSymbol hbare), hbare]

/-- A list of symbols is kept before the end of the text and before the next declaration. -/
theorem keeps_symbolList (hmore : EndsOr Form.keyword (afterPadding more)) :
    Form.symbolList.Keeps (fun rest => EndsOr Form.keyword (afterPadding rest)) (c :: more) := by
  refine (keeps_commaList hc (by decide) (keeps_symbol hc more) ?_ hmore).branch _
  rintro text (rfl | hkeyword)
  · rfl
  · exact read_symbol_of_keyword text hkeyword

/-- A directive is kept before the end of the text and before the next declaration. -/
theorem keeps_directive (hmore : EndsOr Form.keyword (afterPadding more)) :
    Form.directive.Keeps (fun rest => EndsOr Form.keyword (afterPadding rest)) (c :: more) := by
  have hline (p : Pattern Part) (hp : p.staysOnLine = true) :
      p.Keeps (fun rest => EndsOr Form.keyword (afterPadding rest)) (c :: more) :=
    (Pattern.keeps_of_staysOnLine hc hp more).mono fun _ _ => trivial
  have hdeclaration (part wordPart : Part) (word : String)
      (hword : (Form.declarationWord wordPart word).staysOnLine = true) (p : Pattern Part)
      (hp : p.Keeps (fun rest => EndsOr Form.keyword (afterPadding rest)) (c :: more)) :
      (Pattern.branch part (.spaced (Form.declarationWord wordPart word) p)).Keeps
        (fun rest => EndsOr Form.keyword (afterPadding rest)) (c :: more) :=
    ((Pattern.keeps_of_staysOnLine hc hword more).spaced hc hp).branch part
  have hforms : ∀ form ∈ directiveForms, form.1.Keeps
      (fun rest => EndsOr Form.keyword (afterPadding rest)) (c :: more) := by
    simp only [directiveForms, List.forall_mem_cons, List.not_mem_nil, false_imp_iff,
      implies_true, and_true]
    exact ⟨hdeclaration _ _ _ (by decide) _ ((keeps_string _).mono fun _ _ => trivial),
      hline _ (by decide), hline _ (by decide), hline _ (by decide),
      hdeclaration _ _ _ (by decide) _ (keeps_identifierList hc hmore),
      hdeclaration _ _ _ (by decide) _ (keeps_symbolList hc hmore),
      hdeclaration _ _ _ (by decide) _ (keeps_identifierList hc hmore), hline _ (by decide)⟩
  intro text pieces rest hsolid hread hrest
  obtain ⟨form, hform, hread⟩ := (read_directive_iff _ _).mp hread
  exact (read_directive_iff _ _).mpr
    ⟨form, hform, hforms form hform text pieces rest hsolid hread hrest⟩

omit hc in
/-- A line begins with a line break, and its directive stands after the padding. -/
theorem of_read_line {text rest : List Char} {pieces : List (Piece Part)}
    (h : line.read text = some (pieces, rest)) :
    ∃ plain inner, Form.directive.read (afterPadding text) = some (inner, rest) ∧
      Piece.ArePlain plain ∧ pieces = plain ++ inner := by
  obtain ⟨breaks, middle, second, hbreaks, hsecond, rfl⟩ := Pattern.exists_of_read_spaced h
  obtain ⟨inner, hinner, rfl⟩ := exists_of_afterGap hsecond
  obtain ⟨-, hgap, hplain⟩ := of_read_lineBreaks hbreaks
  refine ⟨breaks ++ [.plain (gap middle).1], inner, hgap ▸ hinner, ?_, by simp⟩
  simp only [Piece.ArePlain, List.forall_mem_append, List.forall_mem_singleton]
  exact ⟨hplain, _, rfl⟩

omit hc in
/-- A line is read where a line break stands and a directive after the padding. -/
theorem exists_read_line {text rest : List Char} {inner : List (Piece Part)}
    (hbreak : ∃ c ∈ text.head?, isLineBreak c = true)
    (hdirective : Form.directive.read (afterPadding text) = some (inner, rest)) :
    ∃ plain, Piece.ArePlain plain ∧ line.read text = some (plain ++ inner, rest) := by
  obtain ⟨breaks, middle, hbreaks⟩ := exists_read_lineBreaks hbreak
  obtain ⟨-, hgap, hplain⟩ := of_read_lineBreaks hbreaks
  refine ⟨breaks ++ [.plain (gap middle).1], ?_, ?_⟩
  · simp only [Piece.ArePlain, List.forall_mem_append, List.forall_mem_singleton]
    exact ⟨hplain, _, rfl⟩
  · rw [line, Pattern.read_spaced_eq, hbreaks, Option.bind_some, afterGap, hgap, hdirective]
    simp

omit hc in
/-- No directive can be read where the text ends or a system begins. -/
theorem read_directive_of_endsOr (text : List Char)
    (h : EndsOr (Form.declarationWord .systemWord "system") text) :
    Form.directive.read text = none := by
  rcases h with rfl | hsystem
  · rfl
  · exact read_directive_of_stands_system text ((isSome_read_declarationWord_iff _ _ _).mp hsystem)

omit hc in
/-- Where a further line can be read, a keyword stands after the padding. -/
theorem endsOr_of_isSome_read_line {text : List Char}
    (h : (line.read (gap text).2).isSome = true) : EndsOr Form.keyword (afterPadding text) := by
  obtain ⟨⟨_, _⟩, hline⟩ := Option.isSome_iff_exists.mp h
  obtain ⟨_, _, hdirective, -⟩ := of_read_line hline
  rw [afterPadding_gap] at hdirective
  exact .inr (isSome_read_keyword_of_directive _ _ hdirective)

omit hc in
/-- No further line can be read where the text ends or a system begins after the padding. -/
theorem read_line_of_endsOr {text : List Char}
    (h : EndsOr (Form.declarationWord .systemWord "system") (afterPadding text)) :
    line.read text = none := by
  by_contra hline
  obtain ⟨⟨_, _⟩, hline⟩ := Option.ne_none_iff_exists'.mp hline
  obtain ⟨_, _, hdirective, -⟩ := of_read_line hline
  rw [read_directive_of_endsOr _ h] at hdirective
  contradiction

/-- A line is kept before the end of the text and before the next declaration. -/
theorem keeps_line (hmore : EndsOr Form.keyword (afterPadding more)) :
    line.Keeps (fun rest => EndsOr Form.keyword (afterPadding rest)) (c :: more) :=
  (keeps_lineBreaks hc more).spaced_of_advances hc (by decide) (keeps_directive hc hmore)

/-- A system is kept before the end of the text and before the next system. -/
theorem keeps_system
    (hmore : EndsOr (Form.declarationWord .systemWord "system") (afterPadding more)) :
    Form.system.Keeps
      (fun rest => EndsOr (Form.declarationWord .systemWord "system") (afterPadding rest))
      (c :: more) := by
  refine ((Pattern.keeps_of_staysOnLine hc (by decide) more).spaced hc ?_).branch _
  intro text pieces rest hsolid hread hrest
  refine Pattern.read_spacedMany_append (p := line) hc (by decide) hsolid ?_ (fun _ => ?_) hread
  · refine (keeps_line hc hmore.keyword).mono ?_
    rintro middle (rfl | hnext)
    · exact hrest.keyword
    · exact endsOr_of_isSome_read_line hnext
  · refine read_line_of_endsOr (EndsOr.append hc (by decide) ?_ hmore)
    rwa [afterPadding_gap]

end UnitSystems.Grammar
