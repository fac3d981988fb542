import UnitSystems.Proofs.Grammar.Strings

/-!
# Lists of a definition file

A list is written with a comma and a blank between its items, on one line. It is read item by item,
and the items can be found again among its pieces: the texts of a list of names, the inside parts
of a list of symbols.
-/

namespace UnitSystems.Grammar

/-- The leaves of two runs of pieces are found one after the other. -/
theorem leafTexts_append (name : Part) (first second : List (Piece Part)) :
    leafTexts name (first ++ second) = leafTexts name first ++ leafTexts name second := by
  induction first with
  | nil => rfl
  | cons piece first ih =>
    cases piece with
    | leaf found text =>
      simp only [List.cons_append, leafTexts, ih]
      split <;> rfl
    | plain text => exact ih
    | branch found parts => exact ih

/-- The branches of two runs of pieces are found one after the other. -/
theorem branches_append (name : Part) (first second : List (Piece Part)) :
    branches name (first ++ second) = branches name first ++ branches name second := by
  induction first with
  | nil => rfl
  | cons piece first ih =>
    cases piece with
    | branch found parts =>
      simp only [List.cons_append, branches, ih]
      split <;> rfl
    | plain text => exact ih
    | leaf found text => exact ih

/-- What is found among the pieces of items is found in one item after the other, whenever nothing
is found in a gap and the finds of two runs stand one after the other. -/
theorem find_spacedPieces {α β : Type} (find : List (Piece Part) → List β)
    (hnil : find [] = []) (hgap : find [.plain []] = [])
    (happend : ∀ first second, find (first ++ second) = find first ++ find second)
    (pieces : α → List (Piece Part)) (items : List α) :
    find (spacedPieces pieces items) = items.flatMap fun item => find (pieces item) := by
  have htail (items : List α) : find (items.flatMap fun i => .plain [] :: pieces i) =
      items.flatMap fun item => find (pieces item) := by
    induction items with
    | nil => exact hnil
    | cons item items ih =>
      rw [List.flatMap_cons, List.flatMap_cons, happend, ih, ← List.singleton_append, happend, hgap,
        List.nil_append]
  cases items with
  | nil => exact hnil
  | cons item items => rw [spacedPieces, happend, htail, List.flatMap_cons]

/-- One more item of a list, with the comma before it. -/
def nextItem (item : Pattern Part) : Pattern Part :=
  .spaced (Form.text ",") (.spaced (.spacedMany Form.lineBreak) item)

/-- The pieces of one more item. -/
def nextPieces (piece : Piece Part) : List (Piece Part) :=
  [.plain [','], .plain [' '], .plain [], piece]

/-- The pieces of a list. -/
def listPieces {α : Type} (piece : α → Piece Part) (first : α) (others : List α) :
    List (Piece Part) :=
  [piece first] ++ .plain [] :: (spacedPieces (fun a => nextPieces (piece a)) others ++
    .plain [] :: [])

/-- What is found among the pieces of a list is found in one item after the other. -/
theorem find_listPieces {α β : Type} (find : List (Piece Part) → List β) (hnil : find [] = [])
    (hplain : ∀ text parts, find (.plain text :: parts) = find parts)
    (happend : ∀ first second, find (first ++ second) = find first ++ find second)
    (piece : α → Piece Part) (first : α) (others : List α) :
    find (listPieces piece first others) = (first :: others).flatMap fun a => find [piece a] := by
  have hnext (a : α) : find (nextPieces (piece a)) = find [piece a] := by
    simp only [nextPieces, hplain]
  rw [listPieces, happend, hplain, happend, hplain, hnil, List.append_nil,
    find_spacedPieces find hnil (by rw [hplain, hnil]) happend, List.flatMap_cons]
  simp only [hnext]

/-- One more item is read after its comma and its blank. -/
theorem read_nextItem (item : Pattern Part) (text rest : List Char) (piece : Piece Part)
    (hsolid : IsSolid text) (hbreak : Form.lineBreak.read text = none)
    (hread : item.read text = some ([piece], rest)) :
    (nextItem item).read (',' :: ' ' :: text) = some (nextPieces piece, rest) := by
  have hbreaks : (Pattern.spacedMany Form.lineBreak).read text = some ([], text) := by
    simp only [Pattern.read, hbreak]
  exact Pattern.read_spaced _ _ _ (' ' :: text) text _ [' '] [.plain [',']] _ rfl
    (gap_blank text hsolid)
    (Pattern.read_spaced _ _ _ text text _ [] [] _ hbreaks (gap_of_isSolid text hsolid) hread)

/-- Where a comma or the end of the line stands. -/
def EndsItem (text : List Char) : Prop :=
  ∃ more, text = ',' :: more ∨ text = '\n' :: more

/-- Neither a comma nor the end of the line begins a gap. -/
theorem isSolid_of_endsItem (text : List Char) (h : EndsItem text) : IsSolid text := by
  obtain ⟨more, rfl | rfl⟩ := h
  · exact isSolid_cons _ _ rfl (by decide)
  · exact isSolid_cons _ _ rfl (by decide)

/-- A line break cannot be read where another character stands. -/
theorem read_lineBreak_eq_none (c : Char) (text : List Char) (hc : isLineBreak c = false) :
    Form.lineBreak.read (c :: text) = none := by
  simp only [isLineBreak, Bool.or_eq_false_iff, beq_eq_false_iff_ne] at hc
  simp [Form.lineBreak, Form.firstOf, Form.text, Pattern.read, List.isPrefixOf?, hc.1.symm,
    hc.2.symm]

/-- A list on one line is read item by item to the end of the line. -/
theorem read_commaList {α : Type} (item : Pattern Part) (print : α → List Char)
    (piece : α → Piece Part) (first : α) (others : List α) (more : List Char)
    (hsolid : ∀ a ∈ first :: others, ∀ text, IsSolid (print a ++ text))
    (hbreak : ∀ a ∈ first :: others, ∀ text, Form.lineBreak.read (print a ++ text) = none)
    (hread : ∀ a ∈ first :: others, ∀ text, EndsItem text →
      item.read (print a ++ text) = some ([piece a], text)) :
    (Form.commaList item).read
        (writtenList ((first :: others).map print) ++ '\n' :: more) =
      some (listPieces piece first others, '\n' :: more) := by
  have hend : EndsItem ('\n' :: more) := ⟨more, .inr rfl⟩
  have htail (a : α) (ha : a ∈ others) : a ∈ first :: others := List.mem_cons_of_mem first ha
  have hothers := Pattern.read_spacedMany (nextItem item) (fun a => ',' :: ' ' :: print a)
    (fun a => nextPieces (piece a)) EndsItem others ('\n' :: more) hend rfl isSolid_of_endsItem
    (fun a _ text => ⟨_, .inl rfl⟩)
    (fun a ha text htext => read_nextItem item _ _ _ (hsolid a (htail a ha) text)
      (hbreak a (htail a ha) text) (hread a (htail a ha) text htext))
    (fun a _ => List.cons_ne_nil _ _)
  have hclosed := Pattern.read_spaced _ (.optional (Form.text ",")) _ ('\n' :: more) ('\n' :: more)
    ('\n' :: more) [] _ [] hothers (gap_of_isSolid _ (isSolid_of_endsItem _ hend)) rfl
  have hmiddle : EndsItem ((others.flatMap fun a => ',' :: ' ' :: print a) ++ '\n' :: more) := by
    cases others with
    | nil => exact hend
    | cons next others => exact ⟨_, .inl rfl⟩
  have htext : writtenList ((first :: others).map print) ++ '\n' :: more =
      print first ++ ((others.flatMap fun a => ',' :: ' ' :: print a) ++ '\n' :: more) := by
    simp only [List.map_cons, writtenList, List.flatMap_map, List.append_assoc]
  rw [htext]
  exact Pattern.read_spaced _ _ _ _ _ _ [] _ _ (hread first List.mem_cons_self _ hmiddle)
    (gap_of_isSolid _ (isSolid_of_endsItem _ hmiddle)) hclosed

end UnitSystems.Grammar
