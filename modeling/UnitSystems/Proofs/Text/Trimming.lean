import Mathlib.Data.List.TakeWhile
import UnitSystems.Text.Blank

/-!
# Trimming

Trimming takes the white space at both ends of a text away and nothing else. What is left neither
begins nor ends with white space, and no other part of the text is left by taking white space away
at its ends.
-/

namespace UnitSystems.Text

/-- What is left of a text without the white space at both of its ends. -/
structure IsTrimmed (text rest : List Char) : Prop where
  removed : ∃ before after, text = before ++ rest ++ after ∧
    ∀ c ∈ before ++ after, isWhiteSpace c = true
  first : ∀ c, rest.head? = some c → isWhiteSpace c = false
  last : ∀ c, rest.getLast? = some c → isWhiteSpace c = false

/-- A text that begins with no white space loses nothing at its start. -/
theorem trimStart_eq_self (text : List Char)
    (h : ∀ c, text.head? = some c → isWhiteSpace c = false) : trimStart text = text := by
  cases text with
  | nil => rfl
  | cons c text => exact List.dropWhile_cons_of_neg (by rw [h c rfl]; exact Bool.false_ne_true)

/-- Trimming leaves a text without white space at its ends, and takes nothing but white space
away. -/
theorem isTrimmed_trim (text : List Char) : IsTrimmed text (trim text) := by
  have hstart : text = text.takeWhile isWhiteSpace ++ trimStart text :=
    List.takeWhile_append_dropWhile.symm
  have hend : trimStart text =
      trim text ++ ((trimStart text).reverse.takeWhile isWhiteSpace).reverse := by
    rw [trim, trimEnd, trimStart, trimStart, ← List.reverse_append, List.takeWhile_append_dropWhile,
      List.reverse_reverse]
  refine ⟨⟨text.takeWhile isWhiteSpace, ((trimStart text).reverse.takeWhile isWhiteSpace).reverse,
    ?_, ?_⟩, fun c hc => ?_, fun c hc => ?_⟩
  · rw [List.append_assoc, ← hend, ← hstart]
  · intro c hc
    rw [List.mem_append, List.mem_reverse] at hc
    exact hc.elim List.mem_takeWhile_imp List.mem_takeWhile_imp
  · -- the rest begins as the text does without the white space at its start
    have hhead : (trimStart text).head? = some c := by
      rw [hend, List.head?_append, hc, Option.some_or]
    have hnot := List.head?_dropWhile_not isWhiteSpace text
    rw [← trimStart, hhead] at hnot
    exact hnot
  · have hnot := List.head?_dropWhile_not isWhiteSpace (trimStart text).reverse
    rw [trim, trimEnd, List.getLast?_reverse, trimStart] at hc
    rw [hc] at hnot
    exact hnot

/-- Trimming leaves what a text is without the white space at its ends. -/
theorem trim_eq_iff (text rest : List Char) : trim text = rest ↔ IsTrimmed text rest := by
  constructor
  · rintro rfl
    exact isTrimmed_trim text
  · rintro ⟨⟨before, after, rfl, hwhite⟩, hfirst, hlast⟩
    rw [List.forall_mem_append] at hwhite
    have hstart : trimStart (before ++ rest ++ after) = trimStart (rest ++ after) := by
      rw [List.append_assoc, trimStart, List.dropWhile_append_of_pos hwhite.1, trimStart]
    have hend : trimEnd (rest ++ after) = rest := by
      rw [trimEnd, trimStart, List.reverse_append,
        List.dropWhile_append_of_pos fun c hc => hwhite.2 c (List.mem_reverse.mp hc), ← trimStart,
        trimStart_eq_self _ (by rwa [List.head?_reverse]), List.reverse_reverse]
    cases rest with
    | nil =>
      have hafter : trimStart after = [] := List.dropWhile_eq_nil_iff.mpr hwhite.2
      rw [trim, hstart, List.nil_append, hafter]
      rfl
    | cons c rest => rw [trim, hstart, trimStart_eq_self (c :: rest ++ after) hfirst, hend]

/-- A trimmed string is what a string is without the white space at its ends. -/
theorem trimmed_eq_iff (text rest : String) :
    trimmed text = rest ↔ IsTrimmed text.toList rest.toList := by
  rw [← trim_eq_iff, trimmed, ← String.toList_inj, String.toList_ofList]

/-- White space at the end of a text changes nothing about what trimming leaves. -/
theorem trim_append (text blanks : List Char) (h : ∀ c ∈ blanks, isWhiteSpace c = true) :
    trim (text ++ blanks) = trim text := by
  obtain ⟨⟨before, after, htext, hwhite⟩, hfirst, hlast⟩ := isTrimmed_trim text
  refine (trim_eq_iff _ _).mpr ⟨⟨before, after ++ blanks, ?_, ?_⟩, hfirst, hlast⟩
  · rw [← List.append_assoc, ← htext]
  · rw [← List.append_assoc, List.forall_mem_append]
    exact ⟨hwhite, h⟩

/-- A text that was trimmed stays as it is. -/
theorem trim_trim (text : List Char) : trim (trim text) = trim text := by
  obtain ⟨-, hfirst, hlast⟩ := isTrimmed_trim text
  exact (trim_eq_iff _ _).mpr ⟨⟨[], [], by simp, by simp⟩, hfirst, hlast⟩

/-- Trimming leaves nothing of a text exactly when white space is all there is. -/
theorem isAllWhite_iff (text : String) :
    isAllWhite text = true ↔ ∀ c ∈ text.toList, isWhiteSpace c = true := by
  rw [isAllWhite, List.isEmpty_iff, trim_eq_iff]
  constructor
  · rintro ⟨⟨before, after, htext, hwhite⟩, -, -⟩
    rwa [htext, List.append_nil]
  · exact fun hwhite => ⟨⟨text.toList, [], by simp, by simpa using hwhite⟩, nofun, nofun⟩

end UnitSystems.Text
