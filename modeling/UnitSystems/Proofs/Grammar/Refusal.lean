import UnitSystems.Proofs.Grammar.Reading

/-!
# Characters that end a reading

A pattern that refuses a character reads a text followed by that character exactly as it reads
the text alone: to such a pattern the character is the end of the text. So what a word, a number
or a path is read as in a file can be decided on the word itself.

Spaced patterns refuse nothing here. The blanks and comments between their members may take any
character, and they are read member by member.
-/

namespace UnitSystems.Grammar

variable {ν : Type}

/-- A class that lacks a character takes no more of a text that the character follows. -/
theorem takeWhile_append_refused (isMember : Char → Bool) (text more : List Char) (c : Char)
    (hc : isMember c = false) :
    (text ++ c :: more).takeWhile isMember = text.takeWhile isMember := by
  induction text with
  | nil => simp [hc]
  | cons a text ih => by_cases ha : isMember a <;> simp [ha, ih]

/-- A class that lacks a character leaves that character and all that follows it. -/
theorem dropWhile_append_refused (isMember : Char → Bool) (text more : List Char) (c : Char)
    (hc : isMember c = false) :
    (text ++ c :: more).dropWhile isMember = text.dropWhile isMember ++ c :: more := by
  induction text with
  | nil => simp [hc]
  | cons a text ih => by_cases ha : isMember a <;> simp [ha, ih]

/-- A word that lacks a character begins a text exactly when it begins what stands before it. -/
theorem isPrefixOf?_append_refused (word text more : List Char) (c : Char) (hc : c ∉ word) :
    word.isPrefixOf? (text ++ c :: more) = (word.isPrefixOf? text).map (· ++ c :: more) := by
  induction word generalizing text with
  | nil => cases text <;> rfl
  | cons w word ih =>
    obtain ⟨hw, hword⟩ := List.ne_and_not_mem_of_not_mem_cons hc
    cases text with
    | nil => simp [List.isPrefixOf?, hw.symm]
    | cons a text =>
      simp only [List.cons_append, List.isPrefixOf?]
      split
      · exact ih text hword
      · rfl

/-- Whether every reading takes at least one character. -/
def Pattern.advances : Pattern ν → Bool
  | .one _ => true
  | .word fixed => !fixed.isEmpty
  | .either p q => p.advances && q.advances
  | .joined p q | .spaced p q => p.advances || q.advances
  | .leaf _ p | .branch _ p => p.advances
  | .run _ | .finish | .notAhead _ | .optional _ | .many _ | .spacedMany _ => false

/-- Whether no reading takes a character or looks beyond it: no class holds it, no fixed text
contains it, and every repetition comes to an end before it. -/
def Pattern.refuses (c : Char) : Pattern ν → Bool
  | .one isMember | .run isMember => !isMember c
  | .word fixed => !fixed.contains c
  | .notAhead p | .optional p | .leaf _ p | .branch _ p => p.refuses c
  | .either p q | .joined p q => p.refuses c && q.refuses c
  | .many p => p.refuses c && p.advances
  | .finish | .spaced _ _ | .spacedMany _ => false

/-- What a pattern leaves is no longer than what it was given. -/
theorem Pattern.length_le_of_read (p : Pattern ν) (text : List Char) (pieces : List (Piece ν))
    (rest : List Char) (h : p.read text = some (pieces, rest)) : rest.length ≤ text.length := by
  have hlength := congrArg List.length (p.lossless _ _ _ h)
  rw [List.length_append] at hlength
  omega

/-- What an advancing pattern leaves is shorter than what it was given. -/
theorem Pattern.length_of_advances (p : Pattern ν) (hp : p.advances = true) (text : List Char)
    (pieces : List (Piece ν)) (rest : List Char) (h : p.read text = some (pieces, rest)) :
    rest.length < text.length := by
  induction p generalizing text pieces rest with
  | one isMember =>
    obtain ⟨c, -, rfl, -⟩ := exists_of_read_one h
    exact Nat.lt_succ_self _
  | word fixed =>
    obtain ⟨rfl, -⟩ := of_read_word h
    have hpos : 0 < fixed.length := List.length_pos_iff.mpr (by simpa [advances] using hp)
    rw [List.length_append]
    omega
  | either p q ihp ihq =>
    simp only [advances, Bool.and_eq_true] at hp
    exact (of_read_either h).elim (ihp hp.1 _ _ _) (ihq hp.2 _ _ _)
  | joined p q ihp ihq =>
    simp only [advances, Bool.or_eq_true] at hp
    obtain ⟨first, middle, second, hfirst, hsecond, -⟩ := exists_of_read_joined h
    rcases hp with hp | hq
    · exact Nat.lt_of_le_of_lt (q.length_le_of_read _ _ _ hsecond) (ihp hp _ _ _ hfirst)
    · exact Nat.lt_of_lt_of_le (ihq hq _ _ _ hsecond) (p.length_le_of_read _ _ _ hfirst)
  | spaced p q ihp ihq =>
    simp only [advances, Bool.or_eq_true] at hp
    obtain ⟨first, middle, second, hfirst, hsecond, -⟩ := exists_of_read_spaced h
    obtain ⟨inner, hinner, -⟩ := exists_of_afterGap hsecond
    have hgap := congrArg List.length (gap_append middle)
    rw [List.length_append] at hgap
    rcases hp with hp | hq
    · have hlt := ihp hp _ _ _ hfirst
      have hle := q.length_le_of_read _ _ _ hinner
      omega
    · have hlt := ihq hq _ _ _ hinner
      have hle := p.length_le_of_read _ _ _ hfirst
      omega
  | leaf name p ih =>
    obtain ⟨inner, hinner, -⟩ := exists_of_read_leaf h
    exact ih hp _ _ _ hinner
  | branch name p ih =>
    obtain ⟨inner, hinner, -⟩ := exists_of_read_branch h
    exact ih hp _ _ _ hinner
  | run | finish | notAhead | optional | many | spacedMany => simp [advances] at hp

/-- A reading with more text after the text that it leaves. -/
def extend (more : List Char) (reading : Reading ν) : Reading ν :=
  (reading.1, reading.2 ++ more)

/-- A repetition of an advancing reader that stops before a character stops there as well. -/
theorem rounds_append_refused (read : List Char → Option (Reading ν)) (c : Char)
    (more : List Char)
    (hread : ∀ text, read (text ++ c :: more) = (read text).map (extend (c :: more)))
    (hadvance : ∀ text pieces rest, read text = some (pieces, rest) → rest.length < text.length)
    (short long text : List Char) (hshort : text.length ≤ short.length)
    (hlong : text.length ≤ long.length) :
    rounds read long (text ++ c :: more) = extend (c :: more) (rounds read short text) := by
  have hnil : read [] = none := by
    cases hempty : read [] with
    | none => rfl
    | some reading => exact absurd (hadvance [] _ _ hempty) (Nat.not_lt_zero _)
  induction short generalizing text long with
  | nil =>
    obtain rfl := List.eq_nil_of_length_eq_zero (Nat.le_zero.mp hshort)
    have hstop : read (c :: more) = none := by simpa [hnil] using hread []
    cases long with
    | nil => rfl
    | cons b long =>
      simp only [List.nil_append, rounds, hstop]
      rfl
  | cons s short ih =>
    cases long with
    | nil =>
      obtain rfl := List.eq_nil_of_length_eq_zero (Nat.le_zero.mp hlong)
      rw [rounds, rounds, hnil]
      rfl
    | cons b long =>
      rw [rounds, rounds, hread]
      cases hfirst : read text with
      | none => rfl
      | some reading =>
        obtain ⟨pieces, rest⟩ := reading
        have hlt := hadvance _ _ _ hfirst
        simp only [List.length_cons] at hshort hlong
        simp only [Option.map_some, extend, ih long rest (by omega) (by omega)]

/-- To a pattern that refuses a character, the character is the end of the text. -/
theorem Pattern.read_append_refused (p : Pattern ν) (c : Char) (hp : p.refuses c = true)
    (text more : List Char) :
    p.read (text ++ c :: more) = (p.read text).map (extend (c :: more)) := by
  induction p generalizing text with
  | one isMember =>
    have hc : isMember c = false := by simpa [refuses] using hp
    cases text with
    | nil => simp [read, hc]
    | cons a text => by_cases ha : isMember a <;> simp [read, ha, extend]
  | run isMember =>
    have hc : isMember c = false := by simpa [refuses] using hp
    simp only [read, takeWhile_append_refused isMember text more c hc,
      dropWhile_append_refused isMember text more c hc, Option.map_some, extend]
  | word fixed =>
    have hc : c ∉ fixed := by simpa [refuses] using hp
    simp only [read, isPrefixOf?_append_refused fixed text more c hc, Option.map_map]
    rfl
  | notAhead p ih =>
    simp only [read, ih hp, Option.isSome_map]
    split <;> rfl
  | either p q ihp ihq =>
    simp only [refuses, Bool.and_eq_true] at hp
    simp only [read, ihp hp.1, ihq hp.2]
    cases p.read text <;> rfl
  | optional p ih =>
    simp only [read, ih hp]
    cases p.read text <;> rfl
  | joined p q ihp ihq =>
    simp only [refuses, Bool.and_eq_true] at hp
    simp only [read, ihp hp.1]
    cases p.read text with
    | none => rfl
    | some reading =>
      simp only [Option.map_some, extend, ihq hp.2, Option.map_map]
      rfl
  | many p ih =>
    simp only [refuses, Bool.and_eq_true] at hp
    rw [read, read, rounds_append_refused p.read c more (ih hp.1)
      (p.length_of_advances hp.2) text _ text (Nat.le_refl _) (by simp)]
    rfl
  | leaf name p ih =>
    simp only [read, ih hp, Option.map_map]
    rfl
  | branch name p ih =>
    simp only [read, ih hp, Option.map_map]
    rfl
  | finish | spaced | spacedMany => simp [refuses] at hp

end UnitSystems.Grammar
