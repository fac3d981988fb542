import Mathlib.Data.List.Induction
import Mathlib.Data.String.Basic
import UnitSystems.Span

/-!
# Texts parted by bytes

A place counts the bytes and the line feeds before it, and the characters since the last of them. So
a text parted behind the bytes of a place gives back the line and the column of the place.
-/

namespace UnitSystems

/-- A text parted behind a number of bytes. -/
def splitAtByte : Nat → List Char → List Char × List Char
  | 0, text => ([], text)
  | _ + 1, [] => ([], [])
  | bytes + 1, c :: text =>
    let parts := splitAtByte (bytes + 1 - c.utf8Size) text
    (c :: parts.1, parts.2)

/-- A text is parted behind the bytes of what it begins with. -/
theorem splitAtByte_append (before after : List Char) :
    splitAtByte (String.utf8Len before) (before ++ after) = (before, after) := by
  induction before with
  | nil => cases after <;> rfl
  | cons c before ih =>
    obtain ⟨bytes, hbytes⟩ := Nat.exists_eq_add_one.mpr c.utf8Size_pos
    rw [String.utf8Len_cons, hbytes, List.cons_append, ← Nat.add_assoc, splitAtByte, hbytes]
    simp only [Nat.add_assoc, Nat.add_sub_cancel, ih]

/-- The part of a text between two numbers of bytes. -/
def between (start stop : Nat) (text : List Char) : List Char :=
  (splitAtByte start (splitAtByte stop text).1).2

/-- What stands between two parts of a text is the part between them. -/
theorem between_append (before middle after : List Char) :
    between (String.utf8Len before) (String.utf8Len (before ++ middle))
      (before ++ (middle ++ after)) = middle := by
  rw [between, ← List.append_assoc, splitAtByte_append, splitAtByte_append]

/-- What a text has behind its last line feed. -/
def lastLine (text : List Char) : List Char :=
  (text.reverse.takeWhile (· != '\n')).reverse

/-- A line feed begins an empty line, and every other character goes on with the last one. -/
theorem lastLine_concat (text : List Char) (c : Char) :
    lastLine (text ++ [c]) = if c = '\n' then [] else lastLine text ++ [c] := by
  rw [lastLine, List.reverse_append, List.reverse_singleton, List.singleton_append,
    List.takeWhile_cons]
  by_cases hc : c = '\n'
  · simp [hc]
  · simp [hc, lastLine]

namespace Place

/-- A text takes its bytes and its line feeds. -/
theorem after_eq (p : Place) (text : List Char) :
    (p.after text).offset = p.offset + String.utf8Len text ∧
      (p.after text).line = p.line + text.count '\n' := by
  induction text generalizing p with
  | nil => simp
  | cons c text ih =>
    obtain ⟨hoffset, hline⟩ := ih (p.next c)
    have hnext : (p.next c).offset = p.offset + c.utf8Size ∧
        (p.next c).line = p.line + if c = '\n' then 1 else 0 := by
      unfold next
      split <;> exact ⟨rfl, rfl⟩
    rw [after_cons, hoffset, hline, hnext.1, hnext.2, String.utf8Len_cons, List.count_cons]
    simp only [beq_iff_eq]
    omega

/-- No text leads back. -/
theorem offset_le_after (p : Place) (text : List Char) : p.offset ≤ (p.after text).offset := by
  rw [(p.after_eq text).1]
  exact Nat.le_add_right _ _

/-- A place counts the characters of its line before it. -/
theorem column_after (text : List Char) :
    (Place.after {} text).column = 1 + (lastLine text).length := by
  induction text using List.reverseRecOn with
  | nil => rfl
  | append_singleton text c ih =>
    rw [after_append, after_cons, after_nil, lastLine_concat, next]
    split
    · rfl
    · rw [List.length_append, List.length_singleton, ← Nat.add_assoc, ← ih]

end Place

/-- Places count the bytes before them. -/
theorem offset_after (text : List Char) : (Place.after {} text).offset = String.utf8Len text := by
  rw [(Place.after_eq {} text).1, Nat.zero_add]

/-- The span of a part of a text runs from the bytes before the part to the bytes up to its end. -/
theorem bytes_covering (before part : List Char) :
    (Span.covering (Place.after {} before) part).start = String.utf8Len before ∧
      (Span.covering (Place.after {} before) part).stop = String.utf8Len (before ++ part) := by
  refine ⟨offset_after before, ?_⟩
  show ((Place.after {} before).after part).offset = _
  rw [← Place.after_append, offset_after]

end UnitSystems
