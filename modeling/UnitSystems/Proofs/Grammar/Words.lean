import Mathlib.Data.List.TakeWhile
import UnitSystems.Names
import UnitSystems.Proofs.Grammar.Refusal
import UnitSystems.Proofs.Text.Integers

/-!
# Names, numbers and values of a definition file

Which texts the named parts without inner structure take: a name that is no directive word, the
written form of an integer, the path of a type, and a value that runs to the end of its line. Each
is read alone; a character that the pattern refuses may follow, and then it is read just so.
-/

namespace UnitSystems.Grammar

/-- The words that begin a system or a directive. -/
def keywords : List String :=
  "system" :: directiveWords

/-- Names that a definition file can declare: words that are no directive words. -/
def IsName (name : String) : Prop :=
  Names.isWord name.toList = true ∧ name ∉ keywords

instance (name : String) : Decidable (IsName name) :=
  inferInstanceAs (Decidable (_ ∧ _))

/-- The characters that begin a word are those that begin an identifier of the grammar. -/
theorem isStart_eq_isNameStart (c : Char) : Names.isStart c = isNameStart c := rfl

/-- The characters that a word goes on with are those that an identifier goes on with. -/
theorem isRest_eq_isNameChar (c : Char) : Names.isRest c = isNameChar c := by
  simp only [Names.isRest, isStart_eq_isNameStart, isNameStart, isNameChar, isDigit]
  cases isLetter c <;> cases decide ('0' ≤ c) <;> cases decide (c ≤ '9') <;> cases c == '_' <;> rfl

/-- Every character of a word is one that an identifier goes on with. -/
theorem isNameChar_of_mem (word : List Char) (hword : Names.isWord word = true) (c : Char)
    (hc : c ∈ word) : isNameChar c = true := by
  cases word with
  | nil => simp at hc
  | cons first rest =>
    simp only [Names.isWord, Bool.and_eq_true, List.all_eq_true] at hword
    rw [← isRest_eq_isNameChar]
    rcases List.mem_cons.mp hc with rfl | hrest
    · simp [Names.isRest, hword.1]
    · exact hword.2 c hrest

/-- A run takes a text of its class to the end. -/
theorem read_run (isMember : Char → Bool) (text : List Char) (h : ∀ c ∈ text, isMember c = true) :
    (Pattern.run isMember : Pattern Part).read text = some ([.plain text], []) := by
  have htake : text.takeWhile isMember = text := List.takeWhile_eq_self_iff.mpr h
  have hdrop : text.dropWhile isMember = [] := List.dropWhile_eq_nil_iff.mpr h
  simp only [Pattern.read, htake, hdrop]

/-- One or more characters of a class take a text of that class to the end. -/
theorem read_someOf (isMember : Char → Bool) (first : Char) (text : List Char)
    (h : ∀ c ∈ first :: text, isMember c = true) :
    (Form.someOf isMember).read (first :: text) = some ([.plain [first], .plain text], []) := by
  have hfirst : isMember first = true := h first List.mem_cons_self
  have hrun := read_run isMember text fun c hc => h c (List.mem_cons_of_mem first hc)
  exact Pattern.read_joined _ _ _ text _ [.plain [first]] _ (by simp [Pattern.read, hfirst]) hrun

/-- A choice is read as one of its patterns. -/
theorem exists_of_read_firstOf (p : Pattern Part) (ps : List (Pattern Part)) (text : List Char)
    (reading : Reading Part) (h : (Form.firstOf p ps).read text = some reading) :
    ∃ q ∈ p :: ps, q.read text = some reading := by
  induction ps generalizing p with
  | nil => exact ⟨p, List.mem_cons_self, h⟩
  | cons next ps ih =>
    obtain hp | hnext := Pattern.of_read_either h
    · exact ⟨p, List.mem_cons_self, hp⟩
    · obtain ⟨q, hq, hread⟩ := ih next hnext
      exact ⟨q, List.mem_cons_of_mem p hq, hread⟩

/-- A choice is read as any of its patterns that can be read, if none of them is read otherwise. -/
theorem read_firstOf (q : Pattern Part) (text : List Char) (reading : Reading Part)
    (hq : q.read text = some reading) (p : Pattern Part) (ps : List (Pattern Part))
    (hmem : q ∈ p :: ps)
    (hunique : ∀ r ∈ p :: ps, ∀ other, r.read text = some other → other = reading) :
    (Form.firstOf p ps).read text = some reading := by
  have hsome : ((Form.firstOf p ps).read text).isSome = true := by
    clear hunique
    induction ps generalizing p with
    | nil => exact Option.isSome_of_eq_some (List.mem_singleton.mp hmem ▸ hq)
    | cons next ps ih =>
      rw [Form.firstOf, Pattern.read_either_eq, Option.isSome_or, Bool.or_eq_true]
      rcases List.mem_cons.mp hmem with rfl | hmem
      · exact .inl (Option.isSome_of_eq_some hq)
      · exact .inr (ih next hmem)
  obtain ⟨other, hother⟩ := Option.isSome_iff_exists.mp hsome
  obtain ⟨r, hr, hread⟩ := exists_of_read_firstOf p ps text other hother
  rw [hother, hunique r hr other hread]

/-- A choice between fixed words takes one of them. -/
theorem mem_of_read_firstOf (word : String) (words : List String) (text : List Char)
    (pieces : List (Piece Part)) (rest : List Char)
    (h : (Form.firstOf (Form.text word) (words.map Form.text)).read text = some (pieces, rest)) :
    ∃ taken ∈ word :: words, taken.toList ++ rest = text := by
  obtain ⟨q, hq, hread⟩ := exists_of_read_firstOf _ _ _ _ h
  rw [← List.map_cons] at hq
  obtain ⟨taken, htaken, rfl⟩ := List.mem_map.mp hq
  exact ⟨taken, htaken, (Pattern.of_read_word hread).1⟩

/-- A word that is no directive word does not begin with a whole one. -/
theorem read_keyword_eq_none (name : String) (hname : IsName name) :
    Form.keyword.read name.toList = none := by
  cases hread : Form.keyword.read name.toList with
  | none => rfl
  | some reading =>
    exfalso
    obtain ⟨pieces, hjoined, -⟩ := Pattern.exists_of_read_leaf hread
    simp only [Form.wholeWord, Pattern.read] at hjoined
    split at hjoined
    · contradiction
    · next first middle hword =>
      obtain ⟨taken, hmem, heq⟩ := mem_of_read_firstOf _ _ _ _ _ hword
      cases middle with
      | nil =>
        -- the directive word is the whole name
        rw [List.append_nil, String.toList_inj] at heq
        exact hname.2 (heq ▸ hmem)
      | cons c middle =>
        have hc : isNameChar c = true :=
          isNameChar_of_mem _ hname.1 c (heq ▸ by simp)
        simp [hc] at hjoined

/-- A name is read as an identifier to its end. -/
theorem read_identifier (name : String) (hname : IsName name) :
    Form.identifier.read name.toList = some ([.leaf .identifier name.toList], []) := by
  have hahead : (Pattern.notAhead Form.keyword).read name.toList = some ([], name.toList) := by
    simp only [Pattern.read, read_keyword_eq_none name hname, Option.isSome_none,
      Bool.false_eq_true, ↓reduceIte]
  have hchars := isNameChar_of_mem _ hname.1
  have hword := hname.1
  generalize name.toList = text at hahead hchars hword
  cases text with
  | nil => simp [Names.isWord] at hword
  | cons first text =>
    simp only [Names.isWord, Bool.and_eq_true, isStart_eq_isNameStart] at hword
    have hrun := read_run isNameChar text fun c hc => hchars c (List.mem_cons_of_mem first hc)
    have hbody := Pattern.read_joined (.one isNameStart) _ (first :: text) text _ [.plain [first]] _
      (by simp [Pattern.read, hword.1]) hrun
    exact Pattern.read_leaf _ _ _ _ _ _ (List.append_nil _)
      (Pattern.read_joined _ _ _ _ _ _ _ hahead hbody)

/-- The written form of an integer is read as an integer to its end. -/
theorem read_integer (n : Int) :
    Form.integer.read n.repr.toList = some ([.leaf .integer n.repr.toList], []) := by
  obtain ⟨first, digits, hdigits⟩ := List.exists_cons_of_ne_nil
    (Nat.toDigits_ne_nil : Nat.toDigits 10 n.natAbs ≠ [])
  have hall : ∀ c ∈ first :: digits, isDigit c = true := by
    rw [← hdigits]
    exact isDigit_of_mem_toDigits n.natAbs
  have hsome := read_someOf isDigit first digits hall
  have hfirst := hall first List.mem_cons_self
  rw [toList_repr, hdigits]
  refine Pattern.read_leaf _ _ _ _ _ _ (List.append_nil _)
    (Pattern.read_joined _ _ _ (first :: digits) _ (if n < 0 then [.plain ['-']] else []) _ ?_ hsome)
  split
  · rfl
  · have hsign : '-' ≠ first := by
      rintro rfl
      exact absurd hfirst (by decide)
    simp [Form.text, Pattern.read, List.isPrefixOf?, hsign]

/-- A value without line breaks and comments is read to its end. -/
theorem read_restOfLine (value : List Char) (hne : value ≠ [])
    (hvalue : ∀ c ∈ value, isValue c = true) :
    Form.restOfLine.read value = some ([.leaf .restOfLine value], []) := by
  obtain ⟨first, rest, rfl⟩ := List.exists_cons_of_ne_nil hne
  exact Pattern.read_leaf _ _ _ _ _ _ (List.append_nil _) (read_someOf isValue first rest hvalue)

end UnitSystems.Grammar
