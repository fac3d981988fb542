import UnitSystems.Proofs.DefinitionFile.Layout
import UnitSystems.Proofs.Grammar.Relayout

/-!
# Definition files that are laid out anew

Every form of a definition file carries its readings over when one line break outside the quoted
texts is laid out anew. A directive is carried over when the next declaration or the end of the text
follows, so that a list ends at the same comma, and a system when the next system or the end
follows. The whole file is then read with the same content.
-/

namespace UnitSystems.Grammar

variable {e : LineEdit}

/-- Where the old text ends or goes on with a pattern after its padding, the new one does. -/
theorem LineEdit.Meets.endsOr {p : Pattern Part} (hline : p.staysOnLine = true)
    (hsteady : p.IsSteady) {left right : List Char} (h : e.Meets left right)
    (hleft : EndsOr p (Grammar.afterPadding left)) : EndsOr p (Grammar.afterPadding right) := by
  rcases hleft with hnil | hsome
  · exact .inl (h.afterPadding.eq_nil hnil)
  · obtain ⟨reading, hread⟩ := Option.isSome_iff_exists.mp hsome
    obtain ⟨other, hother, -⟩ := Pattern.exists_read_of_isSteady hline hsteady h.afterPadding
      (isSolid_afterPadding left) (isSolid_afterPadding right) hread
    exact .inr (Option.isSome_of_eq_some hother)

/-- A list ends behind the last item that can be read, and perhaps a comma, before the end of the
text or the next declaration. -/
def EndsList (text : List Char) : Prop :=
  ∃ pieces rest, afterGap (Pattern.optional (Form.text ",")).read text = some (pieces, rest) ∧
    EndsOr Form.keyword (afterPadding rest)

/-- No further item can be read of the new text where the list of the old text ends. -/
theorem EndsList.read_nextItem {item : Pattern Part}
    (hnone : ∀ text, EndsOr Form.keyword text → item.read text = none) {rest last : List Char}
    (h : EndsList rest) (hmeets : e.Meets (gap rest).2 (gap last).2) :
    (nextItem item).read (gap last).2 = none := by
  cases hlast : (gap last).2 with
  | nil => rfl
  | cons d more =>
    by_cases hd : d = ','
    · subst hd
      obtain ⟨left, hleft, hmore⟩ := hmeets.exists_cons hlast (isSolid_gap last) rfl
      obtain ⟨_, after, hcomma, hafter⟩ := h
      obtain ⟨_, hinner, -⟩ := exists_of_afterGap hcomma
      rw [hleft] at hinner
      obtain rfl : left = after := (Prod.mk.inj (Option.some.inj hinner)).2
      exact read_nextItem_eq_none hnone more (hmore.endsOr (by decide)
        (Pattern.isSteady_of_refuses _ (by decide)) hafter)
    · exact read_nextItem_of_ne item d hd more

section

variable (e)

/-- A list is carried over when its items are and no declaration is an item. -/
theorem carries_commaList {item : Pattern Part} (hitem : item.Carries e fun _ => True)
    (hnone : ∀ text, EndsOr Form.keyword text → item.read text = none) :
    (Form.commaList item).Carries e fun rest => EndsOr Form.keyword (afterPadding rest) := by
  have hcomma : (Form.text ",").Carries e fun _ => True :=
    Pattern.carries_of_isSteady (by decide) (Pattern.isSteady_of_refuses _ (by decide))
  have hending : (Pattern.optional (Form.text ",")).Carries e
      fun rest => EndsOr Form.keyword (afterPadding rest) :=
    (Pattern.carries_of_isSteady (by decide)
      (Pattern.isSteady_of_refuses _ (by decide))).mono fun _ _ => trivial
  have hnext : (nextItem item).Carries e fun _ => True :=
    hcomma.spaced ((carries_breaks e).spaced hitem fun _ _ _ _ => trivial) fun _ _ _ _ => trivial
  have hothers : (Pattern.spacedMany (nextItem item)).Carries e EndsList :=
    Pattern.Carries.spacedMany rfl hnext (fun _ _ => trivial) (fun _ _ => trivial)
      fun _ _ hrest hmeets => hrest.read_nextItem hnone hmeets
  refine hitem.spaced (hothers.spaced hending ?_) fun _ _ _ _ => trivial
  rintro middle ⟨pieces, rest⟩ hread hrest
  exact ⟨pieces, rest, hread, hrest⟩

/-- A list of identifiers is carried over. -/
theorem carries_identifierList : Form.identifierList.Carries e
    fun rest => EndsOr Form.keyword (afterPadding rest) := by
  refine (carries_commaList e (Pattern.carries_of_isSteady (by decide)
    (Pattern.isSteady_of_refuses _ (by decide))) ?_).branch _ (by decide)
  rintro text (rfl | hkeyword)
  · rfl
  · exact read_identifier_of_keyword text hkeyword

/-- A symbol is carried over, with or without quotes. -/
theorem carries_symbol : Form.symbol.Carries e fun _ => True := by
  refine Pattern.Carries.branch ?_ _ (by decide)
  intro left right hmeets hleft hright reading hread houtside _
  cases hstring : Form.string.read left with
  | some found =>
    rw [Pattern.read_either_left _ _ _ _ hstring] at hread
    obtain rfl := Option.some.inj hread
    obtain ⟨other, hother, hagrees⟩ :=
      carries_string e left right hmeets hleft hright found hstring houtside trivial
    exact ⟨other, Pattern.read_either_left _ _ _ _ hother, hagrees⟩
  | none =>
    rw [Pattern.read_either_right _ _ _ hstring] at hread
    obtain ⟨other, hother, hagrees⟩ := Pattern.exists_read_of_isSteady (by decide)
      (Pattern.isSteady_of_refuses _ (by decide)) hmeets hleft hright hread
    refine ⟨other, ?_, hagrees⟩
    rw [Pattern.read_either_right _ _ _ (read_string_of_read_bareSymbol hother), hother]

/-- A list of symbols is carried over. -/
theorem carries_symbolList : Form.symbolList.Carries e
    fun rest => EndsOr Form.keyword (afterPadding rest) := by
  refine (carries_commaList e (carries_symbol e) ?_).branch _ (by decide)
  rintro text (rfl | hkeyword)
  · rfl
  · exact read_symbol_of_keyword text hkeyword

/-- A value after its sign is steady. -/
theorem isSteady_assigned : (Pattern.spaced (Form.text "=") Form.restOfLine).IsSteady :=
  (Pattern.isSteady_of_refuses _ (by decide)).spaced isSteady_restOfLine

/-- A directive is carried over before the end of the text and before the next declaration. -/
theorem carries_directive : Form.directive.Carries e
    fun rest => EndsOr Form.keyword (afterPadding rest) := by
  have hdeclaration (part wordPart : Part) (hpart : part ≠ .string) (word : String)
      (hline : (Form.declarationWord wordPart word).staysOnLine = true)
      (hrefuses : [' ', '\t', '#'].all (Form.declarationWord wordPart word).refuses = true)
      (p : Pattern Part) (hp : p.Carries e fun rest => EndsOr Form.keyword (afterPadding rest)) :
      (Pattern.branch part (.spaced (Form.declarationWord wordPart word) p)).Carries e
        fun rest => EndsOr Form.keyword (afterPadding rest) :=
    ((Pattern.carries_of_isSteady hline (Pattern.isSteady_of_refuses _ hrefuses)).spaced hp
      fun _ _ _ _ => trivial).branch part hpart
  have hsteady (p : Pattern Part) (hline : p.staysOnLine = true) (hp : p.IsSteady) :
      p.Carries e fun rest => EndsOr Form.keyword (afterPadding rest) :=
    (Pattern.carries_of_isSteady hline hp).mono fun _ _ => trivial
  have hrefuses (p : Pattern Part) (hline : p.staysOnLine = true)
      (hp : [' ', '\t', '#'].all p.refuses = true) :
      p.Carries e fun rest => EndsOr Form.keyword (afterPadding rest) :=
    hsteady p hline (Pattern.isSteady_of_refuses p hp)
  have hscalar : (Pattern.spaced Form.scalarType
      (.optional (.spaced (Form.text "=") Form.restOfLine))).IsSteady :=
    (Pattern.isSteady_of_refuses _ (by decide)).spaced isSteady_assigned.optional
  have hextra : (Pattern.spaced Form.identifier
      (.spaced (Form.text "=") Form.restOfLine)).IsSteady :=
    (Pattern.isSteady_of_refuses _ (by decide)).spaced isSteady_assigned
  have hforms : ∀ form ∈ directiveForms,
      form.1.Carries e fun rest => EndsOr Form.keyword (afterPadding rest) := by
    simp only [directiveForms, List.forall_mem_cons, List.not_mem_nil, false_imp_iff,
      implies_true, and_true]
    exact
      ⟨hdeclaration _ _ (by decide) _ (by decide) (by decide) _
          ((carries_string e).mono fun _ _ => trivial),
        hdeclaration _ _ (by decide) _ (by decide) (by decide) _ (hsteady _ (by decide) hscalar),
        hdeclaration _ _ (by decide) _ (by decide) (by decide) _
          (hrefuses _ (by decide) (by decide)),
        hdeclaration _ _ (by decide) _ (by decide) (by decide) _
          (hrefuses _ (by decide) (by decide)),
        hdeclaration _ _ (by decide) _ (by decide) (by decide) _ (carries_identifierList e),
        hdeclaration _ _ (by decide) _ (by decide) (by decide) _ (carries_symbolList e),
        hdeclaration _ _ (by decide) _ (by decide) (by decide) _ (carries_identifierList e),
        hdeclaration _ _ (by decide) _ (by decide) (by decide) _ (hsteady _ (by decide) hextra)⟩
  intro left right hmeets hleft hright reading hread houtside hrest
  obtain ⟨form, hform, hread⟩ := (read_directive_iff _ _).mp hread
  obtain ⟨other, hother, hagrees⟩ :=
    hforms form hform left right hmeets hleft hright reading hread houtside hrest
  exact ⟨other, (read_directive_iff _ _).mpr ⟨form, hform, hother⟩, hagrees⟩

/-- A line is carried over before the end of the text and before the next declaration. -/
theorem carries_line : line.Carries e fun rest => EndsOr Form.keyword (afterPadding rest) :=
  (carries_lineBreaks e).spaced (carries_directive e) fun _ _ _ _ => trivial

/-- A system is carried over before the end of the text and before the next system. -/
theorem carries_system : Form.system.Carries e
    fun rest => EndsOr (Form.declarationWord .systemWord "system") (afterPadding rest) := by
  have hname : Form.systemName.Carries e fun _ => True :=
    Pattern.carries_of_isSteady (by decide)
      (((Pattern.isSteady_of_refuses (Form.declarationWord .systemWord "system") (by decide)).spaced
        (Pattern.isSteady_of_refuses Form.identifier (by decide))).branch _)
  have hlines : (Pattern.spacedMany line).Carries e
      fun rest => EndsOr (Form.declarationWord .systemWord "system") (afterPadding rest) := by
    refine Pattern.Carries.spacedMany (by decide) (carries_line e)
      (fun _ hsome => endsOr_of_isSome_read_line hsome) (fun _ hrest => hrest.keyword) ?_
    intro rest last hrest hmeets
    rw [← afterPadding_gap] at hrest
    exact read_line_of_endsOr (hmeets.endsOr (by decide)
      (Pattern.isSteady_of_refuses _ (by decide)) hrest)
  exact (hname.spaced hlines fun _ _ _ _ => trivial).branch _ (by decide)

/-- A system with the line breaks behind it is carried over. -/
theorem carries_systemAndBreaks : systemAndBreaks.Carries e
    fun rest => EndsOr (Form.declarationWord .systemWord "system") (afterPadding rest) := by
  refine (carries_system e).spaced ((carries_breaks e).mono fun _ _ => trivial) ?_
  rintro middle ⟨pieces, rest⟩ hread hrest
  obtain ⟨-, -, -, hpadding⟩ := of_read_breaks_afterGap hread
  exact hpadding ▸ hrest

/-- The systems of a file are carried over to the end of the text. -/
theorem carries_systems :
    (Pattern.spacedMany systemAndBreaks).Carries e fun rest => (gap rest).2 = [] := by
  refine Pattern.Carries.spacedMany (by decide) (carries_systemAndBreaks e) ?_ ?_ ?_
  · intro middle hsome
    obtain ⟨⟨_, _⟩, hread⟩ := Option.isSome_iff_exists.mp hsome
    obtain ⟨_, _, _, hsystem, -, -⟩ := read_systemAndBreaks_iff.mp hread
    have hword := stands_of_read_system hsystem
    rw [← afterPadding_gap, hword.afterPadding (by decide)]
    exact .inr ((isSome_read_declarationWord_iff _ _ _).mpr hword)
  · intro rest hrest
    rw [← afterPadding_gap, hrest]
    exact .inl rfl
  · intro rest last hrest hmeets
    rw [hmeets.eq_nil hrest]
    rfl

/-- The end of the text is carried over. -/
theorem carries_endOfText : Form.endOfText.Carries e fun _ => True := by
  rintro left right hmeets - - ⟨pieces, rest⟩ hread - -
  obtain rfl : left = [] := by
    cases left with
    | nil => rfl
    | cons c left => contradiction
  obtain rfl := hmeets.eq_nil rfl
  exact ⟨_, hread, rfl, .same _⟩

end

/-- A whole file is read with the same content when a line break outside its quoted texts is laid
out anew. -/
theorem exists_read_unitsFile (e : LineEdit) {left right rest : List Char}
    {parts : List (Piece Part)} (hmeets : e.Meets left right)
    (hread : Form.unitsFile.read left = some ([.branch .unitsFile parts], rest))
    (houtside : e.IsOutside [.branch .unitsFile parts] left) :
    ∃ others last, Form.unitsFile.read right = some ([.branch .unitsFile others], last) ∧
      Piece.contentOf parts = Piece.contentOf others := by
  have hbody : (Pattern.spaced (.spacedMany Form.lineBreak)
      (.spaced (.spacedMany systemAndBreaks) Form.endOfText)).Carries e fun _ => True := by
    refine (carries_breaks e).spaced ((carries_systems e).spaced (carries_endOfText e) ?_)
      fun _ _ _ _ => trivial
    rintro middle ⟨pieces, rest⟩ hending -
    exact (afterGap_endOfText_iff.mp hending).1
  rw [read_unitsFile_eq] at hread
  obtain ⟨⟨inner, last⟩, hinner, heq⟩ := Option.map_eq_some_iff.mp hread
  obtain rfl : .plain [] :: inner = parts := by simpa using (Prod.mk.inj heq).1
  have hquoted : Piece.quotedOf [.branch .unitsFile (.plain [] :: inner)] =
      Piece.quotedOf inner := by
    simp [Piece.quotedOf, Piece.quoted]
  obtain ⟨⟨others, after⟩, hother, hcontent, -⟩ := hbody.afterGap hmeets.gap hinner
    (fun text htext => hquoted ▸ houtside text htext) trivial
  exact ⟨.plain [] :: others, after, by rw [read_unitsFile_eq, hother, Option.map_some], hcontent⟩

end UnitSystems.Grammar
