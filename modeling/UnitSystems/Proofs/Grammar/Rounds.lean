import UnitSystems.Proofs.Grammar.Refusal

/-!
# Repetitions as relations

A repetition reads round by round until no further round can be read. Its bound never matters, since
every round of an advancing pattern takes a character. So a repetition can be followed by induction
on its rounds, and it takes the same rounds of a longer text when each round is read as before and
none can be read after the last one.
-/

namespace UnitSystems.Grammar

variable {ν : Type}

/-- Reading round by round, up to a text where no further round can be read. -/
inductive Repeats (read : List Char → Option (Reading ν)) :
    List Char → List (Piece ν) → List Char → Prop
  | stop {text : List Char} (hstop : read text = none) : Repeats read text [] text
  | round {text middle rest : List Char} {pieces more : List (Piece ν)}
      (hround : read text = some (pieces, middle)) (hmore : Repeats read middle more rest) :
      Repeats read text (pieces ++ more) rest

variable {read : List Char → Option (Reading ν)} {text rest : List Char}
  {pieces : List (Piece ν)}

/-- No round can be read where a repetition ends. -/
theorem Repeats.read_eq_none (h : Repeats read text pieces rest) : read rest = none := by
  induction h with
  | stop hstop => exact hstop
  | round hround hmore ih => exact ih

/-- Reading round by round loses no character. -/
theorem Repeats.lossless (h : Repeats read text pieces rest) (hread : Lossless read) :
    Piece.textOf pieces ++ rest = text := by
  induction h with
  | stop => rfl
  | round hround hmore ih =>
    rw [Piece.textOf_append, List.append_assoc, ih, hread _ _ _ hround]

/-- A bound that is long enough does not stop the rounds of an advancing reader. -/
theorem rounds_eq_iff
    (hadvance : ∀ text pieces rest, read text = some (pieces, rest) → rest.length < text.length)
    (bound : List Char) (hbound : text.length ≤ bound.length) :
    rounds read bound text = (pieces, rest) ↔ Repeats read text pieces rest := by
  induction bound generalizing text pieces with
  | nil =>
    obtain rfl := List.eq_nil_of_length_eq_zero (Nat.le_zero.mp hbound)
    have hnil : read [] = none := by
      cases hempty : read [] with
      | none => rfl
      | some reading => exact absurd (hadvance [] _ _ hempty) (Nat.not_lt_zero _)
    constructor
    · intro h
      obtain ⟨rfl, rfl⟩ := Prod.mk.inj h
      exact .stop hnil
    · intro h
      cases h with
      | stop => rfl
      | round hround => simp [hnil] at hround
  | cons b bound ih =>
    rw [rounds]
    constructor
    · intro h
      cases hread : read text with
      | none =>
        obtain ⟨rfl, rfl⟩ := Prod.mk.inj (hread ▸ h)
        exact .stop hread
      | some reading =>
        obtain ⟨first, middle⟩ := reading
        have hlt := hadvance _ _ _ hread
        simp only [hread, Prod.mk.injEq] at h
        obtain ⟨rfl, hrest⟩ := h
        simp only [List.length_cons] at hbound
        exact .round hread ((ih (by omega)).mp (Prod.ext rfl hrest))
    · intro h
      cases h with
      | stop hstop => simp only [hstop]
      | round hround hmore =>
        have hlt := hadvance _ _ _ hround
        simp only [List.length_cons] at hbound
        simp only [hround, (ih (by omega)).mpr hmore]

/-- What a reader after a gap leaves is shorter than what it was given, if the reader advances. -/
theorem length_of_afterGap
    (hadvance : ∀ text pieces rest, read text = some (pieces, rest) → rest.length < text.length)
    (text : List Char) (pieces : List (Piece ν)) (rest : List Char)
    (h : afterGap read text = some (pieces, rest)) : rest.length < text.length := by
  obtain ⟨inner, hinner, -⟩ := exists_of_afterGap h
  have hlt := hadvance _ _ _ hinner
  have hgap := congrArg List.length (gap_append text)
  rw [List.length_append] at hgap
  omega

/-- A repetition of an advancing pattern is read round by round. -/
theorem Pattern.read_many_iff (p : Pattern ν) (hp : p.advances = true) :
    (many p).read text = some (pieces, rest) ↔ Repeats p.read text pieces rest := by
  rw [read, Option.some.injEq]
  exact rounds_eq_iff (p.length_of_advances hp) text (Nat.le_refl _)

/-- A repetition with blanks of an advancing pattern reads nothing, or a first round and then round
by round after the blanks. -/
theorem Pattern.read_spacedMany_iff (p : Pattern ν) (hp : p.advances = true) :
    (spacedMany p).read text = some (pieces, rest) ↔
      (p.read text = none ∧ pieces = [] ∧ rest = text) ∨
        ∃ first middle more, p.read text = some (first, middle) ∧
          Repeats (afterGap p.read) middle more rest ∧ pieces = first ++ more := by
  have hrounds (middle : List Char) (more : List (Piece ν)) :
      rounds (afterGap p.read) middle middle = (more, rest) ↔
        Repeats (afterGap p.read) middle more rest :=
    rounds_eq_iff (length_of_afterGap (p.length_of_advances hp)) middle (Nat.le_refl _)
  rw [read]
  cases hfirst : p.read text with
  | none => simp [eq_comm]
  | some reading =>
    obtain ⟨first, middle⟩ := reading
    simp only [Option.some.injEq, Prod.mk.injEq, reduceCtorEq, false_and, false_or, ← hrounds]
    constructor
    · rintro ⟨rfl, rfl⟩
      exact ⟨_, _, _, ⟨rfl, rfl⟩, rfl, rfl⟩
    · rintro ⟨_, _, more, ⟨rfl, rfl⟩, heq, rfl⟩
      simp only [heq, and_self]

/-- Behind a gap, the members of a spaced pattern are read each behind a gap of its own. -/
theorem Pattern.afterGap_spaced_iff (p q : Pattern ν) :
    afterGap (spaced p q).read text = some (pieces, rest) ↔ ∃ first middle second,
      afterGap p.read text = some (first, middle) ∧ afterGap q.read middle = some (second, rest) ∧
        pieces = first ++ second := by
  constructor
  · intro h
    obtain ⟨inner, hinner, rfl⟩ := exists_of_afterGap h
    obtain ⟨first, middle, second, hfirst, hsecond, rfl⟩ := exists_of_read_spaced hinner
    exact ⟨.plain (gap text).1 :: first, middle, second, by rw [afterGap, hfirst, Option.map_some],
      hsecond, rfl⟩
  · rintro ⟨first, middle, second, hfirst, hsecond, rfl⟩
    obtain ⟨inner, hinner, rfl⟩ := exists_of_afterGap hfirst
    rw [afterGap, read_spaced_eq, hinner, Option.bind_some, hsecond]
    rfl

/-- Behind a gap, a repetition with blanks reads nothing, or round by round with the gap before the
first round. -/
theorem Pattern.afterGap_spacedMany_iff (p : Pattern ν) (hp : p.advances = true) :
    afterGap (spacedMany p).read text = some (pieces, rest) ↔
      (p.read (gap text).2 = none ∧ pieces = [.plain (gap text).1] ∧ rest = (gap text).2) ∨
        p.read (gap text).2 ≠ none ∧ Repeats (afterGap p.read) text pieces rest := by
  constructor
  · intro h
    obtain ⟨inner, hinner, rfl⟩ := exists_of_afterGap h
    obtain ⟨hnone, rfl, rfl⟩ | ⟨first, middle, more, hfirst, hmore, rfl⟩ :=
      (p.read_spacedMany_iff hp).mp hinner
    · exact .inl ⟨hnone, rfl, rfl⟩
    · have hround : afterGap p.read text = some (.plain (gap text).1 :: first, middle) := by
        rw [afterGap, hfirst, Option.map_some]
      exact .inr ⟨by simp [hfirst], .round hround hmore⟩
  · rintro (⟨hnone, rfl, rfl⟩ | ⟨hsome, hrepeats⟩)
    · rw [afterGap, (p.read_spacedMany_iff hp).mpr (.inl ⟨hnone, rfl, rfl⟩)]
      rfl
    · cases hrepeats with
      | stop hstop => exact absurd (Option.map_eq_none_iff.mp hstop) hsome
      | round hround hmore =>
        obtain ⟨first, hfirst, rfl⟩ := exists_of_afterGap hround
        rw [afterGap, (p.read_spacedMany_iff hp).mpr (.inr ⟨_, _, _, hfirst, hmore, rfl⟩)]
        rfl

/-- Behind a gap, a repetition with blanks reads its rounds, or the gap when there are none. -/
theorem Repeats.afterGap_spacedMany {p : Pattern ν} (hp : p.advances = true)
    (h : Repeats (afterGap p.read) text pieces rest) :
    afterGap (Pattern.spacedMany p).read text = some (pieces, rest) ∨ pieces = [] ∧ rest = text ∧
      afterGap (Pattern.spacedMany p).read text = some ([.plain (gap text).1], (gap text).2) := by
  cases h with
  | stop hstop =>
    have hnone := Option.map_eq_none_iff.mp hstop
    exact .inr ⟨rfl, rfl, (p.afterGap_spacedMany_iff hp).mpr (.inl ⟨hnone, rfl, rfl⟩)⟩
  | @round _ middle _ first more hround hmore =>
    obtain ⟨inner, hinner, -⟩ := exists_of_afterGap hround
    exact .inl ((p.afterGap_spacedMany_iff hp).mpr
      (.inr ⟨by simp [hinner], .round hround hmore⟩))

/-- The rounds of a text are the rounds of a longer one, if each of them is and none follows. It is
enough that a round is read as before when it is the last one or another one follows it. -/
theorem Repeats.append (more : List Char) (h : Repeats read text pieces rest)
    (hround : ∀ text pieces middle, read text = some (pieces, middle) →
      middle = rest ∨ (read middle).isSome = true →
      read (text ++ more) = some (pieces, middle ++ more))
    (hstop : read (rest ++ more) = none) : Repeats read (text ++ more) pieces (rest ++ more) := by
  induction h with
  | stop => exact .stop hstop
  | round hfirst hmore ih =>
    refine .round (hround _ _ _ hfirst ?_) (ih hround hstop)
    cases hmore with
    | stop => exact .inl rfl
    | round hnext => exact .inr (Option.isSome_of_eq_some hnext)

end UnitSystems.Grammar
