import UnitSystems.Proofs.Grammar.Keywords
import UnitSystems.Proofs.Grammar.Leaves
import UnitSystems.Proofs.Grammar.Lists
import UnitSystems.Proofs.Grammar.Padding
import UnitSystems.Proofs.Validation.WellFormed

/-!
# What the leaves of a definition file can be

Wherever the grammar takes a name, a path of a type or a value, the text it takes is one: a name is
a word that is no directive word, a path is words between double colons, and a value holds neither
line breaks nor the sign of a comment. What comes before or after it in the file plays no part.
-/

namespace UnitSystems.Grammar

/-- What the text of a leaf is, by the name of the leaf. -/
def IsLexeme : Part → List Char → Prop
  | .identifier, text => IsName (String.ofList text)
  | .scalarType, text => Names.isTypePath (String.ofList text) = true
  | .restOfLine, text => ∀ c ∈ text, isValue c = true
  | _, _ => True

/-- A run is a first character of one class and all following ones of another. -/
theorem of_read_run {isFirst isMember : Char → Bool} {text rest : List Char}
    {pieces : List (Piece Part)}
    (h : (Pattern.joined (.one isFirst) (.run isMember)).read text = some (pieces, rest)) :
    ∃ c more, isFirst c = true ∧ (∀ d ∈ more, isMember d = true) ∧
      Piece.textOf pieces = c :: more ∧ ∀ d ∈ rest.head?, isMember d = false := by
  obtain ⟨first, middle, second, hfirst, hsecond, rfl⟩ := Pattern.exists_of_read_joined h
  obtain ⟨c, hc, -, rfl⟩ := Pattern.exists_of_read_one hfirst
  obtain ⟨rfl, rfl⟩ := Prod.mk.inj (Option.some.inj hsecond)
  exact ⟨c, middle.takeWhile isMember, hc, fun d hd => List.mem_takeWhile_imp hd,
    by simp [Piece.textOf, Piece.text], head_dropWhile isMember middle⟩

/-- An identifier is read to its end. -/
theorem exists_of_read_identifier {text rest : List Char} {pieces : List (Piece Part)}
    (h : Form.identifier.read text = some (pieces, rest)) :
    ∃ c more, isNameStart c = true ∧ (∀ d ∈ more, isNameChar d = true) ∧
      pieces = [.leaf .identifier (c :: more)] ∧ text = c :: (more ++ rest) ∧
      ∀ d ∈ rest.head?, isNameChar d = false := by
  obtain ⟨inner, hinner, rfl⟩ := Pattern.exists_of_read_leaf h
  obtain ⟨ahead, middle, run, hahead, hrun, rfl⟩ := Pattern.exists_of_read_joined hinner
  obtain ⟨rfl, rfl⟩ := Pattern.of_read_notAhead hahead
  have hlossless := Pattern.lossless _ _ _ _ hrun
  obtain ⟨c, more, hc, hmore, htext, hrest⟩ := of_read_run hrun
  refine ⟨c, more, hc, hmore, ?_, ?_, hrest⟩
  · rw [List.nil_append, htext]
  · rw [← hlossless, htext, List.cons_append]

/-- The characters of a name and those of an identifier make the same words. -/
theorem isWord_cons (c : Char) (more : List Char) (hc : isNameStart c = true)
    (hmore : ∀ d ∈ more, isNameChar d = true) : Names.isWord (c :: more) = true := by
  rw [Names.isWord, Bool.and_eq_true, List.all_eq_true]
  exact ⟨hc, fun d hd => (isRest_eq_isNameChar d).trans (hmore d hd)⟩

/-- What is read as an identifier is a name: were it a directive word, that word would stand there
as a whole. -/
theorem demands_identifier : Form.identifier.Demands IsLexeme := by
  intro text pieces rest h
  obtain ⟨ahead, middle, word, hahead, hword, rfl⟩ := Pattern.exists_of_read_joined h
  have hkeyword : Form.keyword.read text = none := by
    by_contra hsome
    simp [Pattern.read, Option.isSome_iff_ne_none.mpr hsome] at hahead
  obtain ⟨rfl, rfl⟩ := Pattern.of_read_notAhead hahead
  have hlossless := Pattern.lossless _ _ _ _ hword
  obtain ⟨c, more, hc, hmore, htext, hhead⟩ := of_read_run hword
  rw [List.nil_append, IsLexeme, IsName, String.toList_ofList, htext]
  refine ⟨isWord_cons c more hc hmore, fun hmem => ?_⟩
  have hstands : Stands (String.ofList (c :: more)) middle := by
    refine Option.isSome_of_eq_some ((read_wholeWord_iff _ _ [.plain (c :: more)] rest).mpr
      ⟨?_, hhead⟩)
    rw [Form.text, String.toList_ofList, ← hlossless, htext, Pattern.read,
      List.isPrefixOf?_eq_some_iff_append_eq.mpr rfl, Option.map_some]
  have hread := hstands.isSome_read_keyword hmem
  rw [hkeyword] at hread
  contradiction

/-- Rounds of a double colon and a word take words, each behind a double colon. -/
theorem exists_of_repeats_colons {text rest : List Char} {pieces : List (Piece Part)}
    (h : Repeats (Pattern.joined (Form.text "::")
      (.joined (.one isNameStart) (.run isNameChar))).read text pieces rest) :
    ∃ words : List (List Char), (∀ word ∈ words, Names.isWord word = true) ∧
      Piece.textOf pieces = words.flatMap fun word => "::".toList ++ word := by
  induction h with
  | stop => exact ⟨[], by simp, rfl⟩
  | round hround hmore ih =>
    obtain ⟨words, hwords, htext⟩ := ih
    obtain ⟨colons, middle, word, hcolons, hword, rfl⟩ := Pattern.exists_of_read_joined hround
    obtain ⟨-, rfl⟩ := Pattern.of_read_word hcolons
    obtain ⟨c, more, hc, hmore, hname, -⟩ := of_read_run hword
    refine ⟨(c :: more) :: words,
      List.forall_mem_cons.mpr ⟨isWord_cons c more hc hmore, hwords⟩, ?_⟩
    rw [Piece.textOf_append, Piece.textOf_append, hname, htext, List.flatMap_cons]
    rfl

/-- Words joined by double colons are the first word and then each of the others behind a double
colon. -/
theorem intercalate_cons_eq (first : List Char) (words : List (List Char)) :
    "::".toList.intercalate (first :: words) =
      first ++ words.flatMap fun word => "::".toList ++ word := by
  induction words generalizing first with
  | nil => simp
  | cons word words ih =>
    rw [List.intercalate_cons_cons, ih, List.flatMap_cons, List.append_assoc, List.append_assoc]

/-- What is read as the path of a type is one. -/
theorem demands_scalarType : Form.scalarType.Demands IsLexeme := by
  intro text pieces rest h
  obtain ⟨colons, start, path, hcolons, hpath, rfl⟩ := Pattern.exists_of_read_joined h
  obtain ⟨head, afterHead, others, hhead, hothers, rfl⟩ := Pattern.exists_of_read_joined hpath
  obtain ⟨tail, afterTail, rounds, htail, hrounds, rfl⟩ := Pattern.exists_of_read_joined hothers
  obtain ⟨c, more, hc, hmore, hfirst, -⟩ :=
    of_read_run (Pattern.read_joined _ _ _ _ _ _ _ hhead htail)
  obtain ⟨words, hwords, hrest⟩ :=
    exists_of_repeats_colons ((Pattern.read_many_iff _ (by decide)).mp hrounds)
  have hjoined : Piece.textOf (head ++ (tail ++ rounds)) =
      "::".toList.intercalate ((c :: more) :: words) := by
    rw [← List.append_assoc, Piece.textOf_append, hfirst, hrest, intercalate_cons_eq]
  rw [IsLexeme, Names.isTypePath_iff]
  refine ⟨(c :: more) :: words, List.cons_ne_nil _ _,
    List.forall_mem_cons.mpr ⟨isWord_cons c more hc hmore, hwords⟩, ?_⟩
  rw [String.toList_ofList, Piece.textOf_append, hjoined]
  obtain hcolons | ⟨rfl, -⟩ := Pattern.of_read_optional hcolons
  · obtain ⟨-, rfl⟩ := Pattern.of_read_word hcolons
    exact .inr rfl
  · exact .inl rfl

/-- What is read as a value is one. -/
theorem demands_restOfLine : Form.restOfLine.Demands IsLexeme := by
  intro text pieces rest h
  obtain ⟨c, more, hc, hmore, htext, -⟩ := of_read_run h
  rw [htext, IsLexeme]
  exact List.forall_mem_cons.mpr ⟨hc, hmore⟩

/-- All leaves of a directive are what their names say. -/
theorem demands_directive : Form.directive.Demands IsLexeme := by
  have hother (name : Part) (p : Pattern Part)
      (hname : name ∉ [Part.identifier, .scalarType, .restOfLine]) :
      (Pattern.leaf name p).Demands IsLexeme := by
    intro text pieces rest _
    simp only [List.mem_cons, List.not_mem_nil, or_false, not_or] at hname
    unfold IsLexeme
    split <;> simp at hname ⊢
  have hlist (item : Pattern Part) (hitem : item.Demands IsLexeme) :
      (Form.commaList item).Demands IsLexeme :=
    ⟨hitem, ⟨trivial, ⟨trivial, trivial, trivial⟩, hitem⟩, trivial⟩
  have hstring : Form.string.Demands IsLexeme := ⟨trivial, hother _ _ (by decide), trivial⟩
  have hassigned : (Pattern.spaced (Form.text "=") Form.restOfLine).Demands IsLexeme :=
    ⟨trivial, demands_restOfLine⟩
  have hnames := hlist _ demands_identifier
  have hsymbols := hlist Form.symbol ⟨hstring, hother _ _ (by decide)⟩
  exact ⟨⟨hother _ _ (by decide), hstring⟩,
    ⟨hother _ _ (by decide), demands_scalarType, hassigned⟩,
    ⟨hother _ _ (by decide), demands_identifier⟩, ⟨hother _ _ (by decide), hother _ _ (by decide)⟩,
    ⟨hother _ _ (by decide), hnames⟩, ⟨hother _ _ (by decide), hsymbols⟩,
    ⟨hother _ _ (by decide), hnames⟩, hother _ _ (by decide), demands_identifier, hassigned⟩

section

variable {demand : Part → List Char → Prop} {pieces : List (Piece Part)}

/-- The texts that are found among pieces meet the demand that the pieces meet. -/
theorem Piece.Meet.leafTexts (h : Piece.Meet demand pieces) (name : Part) :
    ∀ text ∈ leafTexts name pieces, demand name text := by
  induction pieces with
  | nil => simp [Grammar.leafTexts]
  | cons piece pieces ih =>
    obtain ⟨hpiece, hpieces⟩ := (Piece.meet_cons_iff _ _).mp h
    cases piece with
    | plain | branch => exact ih hpieces
    | leaf found text =>
      rw [Grammar.leafTexts]
      split
      · next hfound =>
        exact List.forall_mem_cons.mpr
          ⟨hfound ▸ (Piece.meet_leaf_iff _ _).mp hpiece, ih hpieces⟩
      · exact ih hpieces

/-- The first text that is found is the first of all that are. -/
theorem leafText?_eq_head? (name : Part) (pieces : List (Piece Part)) :
    leafText? name pieces = (leafTexts name pieces).head? := by
  induction pieces with
  | nil => rfl
  | cons piece pieces ih =>
    cases piece with
    | plain | branch => exact ih
    | leaf found text =>
      rw [leafText?, leafTexts]
      split
      · rfl
      · exact ih

/-- The first text that is found meets the demand that the pieces meet. -/
theorem Piece.Meet.leafText? (h : Piece.Meet demand pieces) (name : Part) :
    ∀ text ∈ leafText? name pieces, demand name text := by
  intro text htext
  rw [leafText?_eq_head?] at htext
  exact h.leafTexts name text (List.mem_of_mem_head? htext)

/-- The pieces that are found in a branch meet the demand that all pieces meet. -/
theorem Piece.Meet.branch? (h : Piece.Meet demand pieces) (name : Part) :
    ∀ parts ∈ branch? name pieces, Piece.Meet demand parts := by
  induction pieces with
  | nil => simp [Grammar.branch?]
  | cons piece pieces ih =>
    obtain ⟨hpiece, hpieces⟩ := (Piece.meet_cons_iff _ _).mp h
    cases piece with
    | plain | leaf => exact ih hpieces
    | branch found inside =>
      rw [Grammar.branch?]
      split
      · rintro _ ⟨rfl⟩
        exact (Piece.meet_branch_iff _ _).mp hpiece
      · exact ih hpieces

/-- Whether every reading has a leaf with a name that lies in no branch. -/
def Pattern.holdsLeaf (name : Part) : Pattern Part → Bool
  | .leaf found _ => found = name
  | .either p q => p.holdsLeaf name && q.holdsLeaf name
  | .joined p q | .spaced p q => p.holdsLeaf name || q.holdsLeaf name
  | .one _ | .run _ | .word _ | .finish | .notAhead _ | .optional _ | .many _ | .spacedMany _
  | .branch _ _ => false

/-- A leaf is found in what a pattern is read as that always has one. -/
theorem Pattern.exists_leafText? {p : Pattern Part} {name : Part} (hp : p.holdsLeaf name = true)
    {text rest : List Char} (h : p.read text = some (pieces, rest)) :
    ∃ taken, Grammar.leafText? name pieces = some taken := by
  have hne : leafTexts name pieces ≠ [] := by
    induction p generalizing text rest pieces with
    | leaf found p =>
      obtain ⟨inner, -, rfl⟩ := exists_of_read_leaf h
      simp only [holdsLeaf, decide_eq_true_eq] at hp
      simp [leafTexts, hp]
    | either p q ihp ihq =>
      simp only [holdsLeaf, Bool.and_eq_true] at hp
      exact (of_read_either h).elim (ihp hp.1) (ihq hp.2)
    | joined p q ihp ihq =>
      simp only [holdsLeaf, Bool.or_eq_true] at hp
      obtain ⟨first, middle, second, hfirst, hsecond, rfl⟩ := exists_of_read_joined h
      rw [leafTexts_append, Ne, List.append_eq_nil_iff, not_and_or]
      exact hp.imp (ihp · hfirst) (ihq · hsecond)
    | spaced p q ihp ihq =>
      simp only [holdsLeaf, Bool.or_eq_true] at hp
      obtain ⟨first, middle, second, hfirst, hsecond, rfl⟩ := exists_of_read_spaced h
      obtain ⟨inner, hinner, rfl⟩ := exists_of_afterGap hsecond
      rw [leafTexts_append, Ne, List.append_eq_nil_iff, not_and_or]
      refine hp.imp (ihp · hfirst) fun hq => ?_
      show leafTexts name inner ≠ []
      exact ihq hq hinner
    | one | run | word | finish | notAhead | optional | many | spacedMany | branch =>
      simp [holdsLeaf] at hp
  obtain ⟨taken, others, heq⟩ := List.exists_cons_of_ne_nil hne
  exact ⟨taken, by rw [leafText?_eq_head?, heq, List.head?_cons]⟩

end

end UnitSystems.Grammar
