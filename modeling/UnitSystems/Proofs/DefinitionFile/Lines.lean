import UnitSystems.Proofs.Grammar.Keywords
import UnitSystems.Proofs.Grammar.Lists
import UnitSystems.Proofs.Text.Trimming

/-!
# Reading the lines of a definition

Every line that a directive is written as is read as a single piece, and this piece means the
directive. The word at the start of the line decides which of the directives is read, since no
directive word begins another one.
-/

namespace UnitSystems

open Grammar

/-- A directive word is read to its end. -/
theorem read_wholeWord (word : String) :
    (Form.wholeWord (Form.text word)).read word.toList = some ([.plain word.toList], []) := by
  have hprefix : word.toList.isPrefixOf? word.toList = some [] :=
    List.isPrefixOf?_eq_some_iff_append_eq.mpr (List.append_nil _)
  simp [Form.wholeWord, Form.text, Pattern.read, hprefix]

/-- The patterns of the directive words refuse a blank. -/
theorem refuses_blank_of_mem : ∀ word ∈ keywords,
    (Form.wholeWord (Form.text word)).refuses ' ' = true := by
  decide

/-- A declaration is read after its word and a blank. -/
theorem read_declaration (part wordPart : Part) (word : String) (hword : word ∈ keywords)
    (p : Pattern Part) (text rest : List Char) (parts : List (Piece Part)) (hsolid : IsSolid text)
    (hp : p.read text = some (parts, rest)) :
    (Pattern.branch part (.spaced (Form.declarationWord wordPart word) p)).read
        (word.toList ++ ' ' :: text) =
      some ([.branch part (.leaf wordPart word.toList :: .plain [' '] :: parts)], rest) := by
  have hbegin : (Form.wholeWord (Form.text word)).read (word.toList ++ ' ' :: text) =
      some ([.plain word.toList], ' ' :: text) := by
    rw [Pattern.read_append_refused _ ' ' (refuses_blank_of_mem word hword), read_wholeWord]
    rfl
  exact Pattern.read_branch _ _ _ _ _ (Pattern.read_spaced _ _ _ (' ' :: text) text rest [' '] _ _
    (Pattern.read_leaf _ _ _ word.toList _ _ rfl hbegin) (gap_blank text hsolid) hp)

/-- A name is read as an identifier up to a character that no identifier takes. -/
theorem read_name (name : String) (hname : IsName name) (c : Char)
    (hc : Form.identifier.refuses c = true) (more : List Char) :
    Form.identifier.read (name.toList ++ c :: more) =
      some ([.leaf .identifier name.toList], c :: more) := by
  rw [Pattern.read_append_refused _ c hc, read_identifier name hname]
  rfl

/-- A name has a first character, which identifiers begin with. -/
theorem IsName.exists_cons (name : String) (hname : IsName name) :
    ∃ first rest, name.toList = first :: rest ∧ isNameStart first = true := by
  have hword := hname.1
  cases heq : name.toList with
  | nil => simp [heq, Names.isWord] at hword
  | cons first rest =>
    simp only [heq, Names.isWord, Bool.and_eq_true, isStart_eq_isNameStart] at hword
    exact ⟨first, rest, rfl, hword.1⟩

/-- No gap stands before a name. -/
theorem IsName.isSolid (name : String) (hname : IsName name) (text : List Char) :
    IsSolid (name.toList ++ text) := by
  obtain ⟨first, rest, heq, hfirst⟩ := IsName.exists_cons name hname
  rw [heq, List.cons_append]
  apply isSolid_cons
  · by_contra hblank
    simp only [isBlank, Bool.not_eq_false, Bool.or_eq_true, beq_iff_eq] at hblank
    rcases hblank with rfl | rfl <;> exact absurd hfirst (by decide)
  · rintro rfl
    exact absurd hfirst (by decide)

/-- No line break stands before a name. -/
theorem IsName.read_lineBreak (name : String) (hname : IsName name) (text : List Char) :
    Form.lineBreak.read (name.toList ++ text) = none := by
  obtain ⟨first, rest, heq, hfirst⟩ := IsName.exists_cons name hname
  rw [heq, List.cons_append]
  apply read_lineBreak_eq_none
  by_contra hbreak
  simp only [isLineBreak, Bool.not_eq_false, Bool.or_eq_true, beq_iff_eq] at hbreak
  rcases hbreak with rfl | rfl <;> exact absurd hfirst (by decide)

/-- A value that fills its line does not begin with white space. -/
theorem IsLineValue.exists_cons (value : String) (hvalue : IsLineValue value) :
    ∃ first rest, value.toList = first :: rest ∧ Text.isWhiteSpace first = false := by
  obtain ⟨first, rest, heq⟩ := List.exists_cons_of_ne_nil
    (mt String.toList_eq_nil_iff.mp hvalue.1)
  have htrimmed := (Text.trimmed_eq_iff value value).mp hvalue.2.1
  exact ⟨first, rest, heq, htrimmed.first first (by rw [heq, List.head?_cons])⟩

/-- The pieces of a value after its sign. -/
def assignedPieces (value : String) : List (Piece Part) :=
  [.plain ['='], .plain [' '], .leaf .restOfLine value.toList]

/-- A value after its sign is read to the end of the line. -/
theorem read_assigned (value : String) (hvalue : IsLineValue value) (more : List Char) :
    (Pattern.spaced (Form.text "=") Form.restOfLine).read
        ('=' :: ' ' :: (value.toList ++ '\n' :: more)) =
      some (assignedPieces value, '\n' :: more) := by
  obtain ⟨first, rest, heq, hwhite⟩ := hvalue.exists_cons
  have hall : ∀ c ∈ value.toList, isValue c = true := by
    intro c hc
    obtain ⟨hlf, hcr, hcomment⟩ := hvalue.2.2 c hc
    simp [isValue, isLineBreak, hlf, hcr, hcomment]
  have hline : Form.restOfLine.read (value.toList ++ '\n' :: more) =
      some ([.leaf .restOfLine value.toList], '\n' :: more) := by
    rw [Pattern.read_append_refused _ '\n' (by decide),
      read_restOfLine _ (by simp [heq]) hall]
    rfl
  have hsolid : IsSolid (value.toList ++ '\n' :: more) := by
    rw [heq]
    refine isSolid_cons _ _ ?_ (hvalue.2.2 first (by simp [heq])).2.2
    by_contra hblank
    simp only [isBlank, Bool.not_eq_false, Bool.or_eq_true, beq_iff_eq] at hblank
    rcases hblank with rfl | rfl <;> exact absurd hwhite (by decide)
  exact Pattern.read_spaced _ _ _ (' ' :: (value.toList ++ '\n' :: more)) _ _ [' ']
    [.plain ['=']] _ rfl (gap_blank _ hsolid) hline

end UnitSystems
