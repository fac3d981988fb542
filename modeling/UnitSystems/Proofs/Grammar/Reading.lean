import Mathlib.Data.List.Basic
import Mathlib.Data.List.TakeDrop
import UnitSystems.Grammar.Pattern

/-!
# What a reading takes and leaves

A reading loses no character: the texts of its pieces and the text that is left are the text it
was given. So the text of a named part is known as soon as it is known what the part leaves, and
the members of a sequence can be read one after the other. A repetition is read item by item, as
long as every item can be told from what follows it and nothing after the last one is an item.
-/

namespace UnitSystems.Grammar

variable {ν : Type}

/-- The blanks and the comment before a text stand where they were taken from. -/
theorem gap_append (text : List Char) : (gap text).1 ++ (gap text).2 = text := by
  unfold gap
  simp only [List.span_eq_takeWhile_dropWhile]
  split
  · next comment hcomment =>
    rw [List.append_assoc, List.takeWhile_append_dropWhile, List.takeWhile_append_dropWhile]
  · exact List.takeWhile_append_dropWhile

/-- An alternative is read as the first pattern where it can be. -/
theorem Pattern.read_either_eq (p q : Pattern ν) (text : List Char) :
    (Pattern.either p q).read text = (p.read text).or (q.read text) := by
  rw [Pattern.read]
  cases p.read text <;> rfl

/-- The second of two joined patterns is read from what the first one leaves. -/
theorem Pattern.read_joined_eq (p q : Pattern ν) (text : List Char) :
    (Pattern.joined p q).read text = (p.read text).bind fun first =>
      (q.read first.2).map fun second => (first.1 ++ second.1, second.2) := by
  rw [Pattern.read]
  cases p.read text <;> rfl

/-- The second of two spaced patterns is read from what the first one and a gap leave. -/
theorem Pattern.read_spaced_eq (p q : Pattern ν) (text : List Char) :
    (Pattern.spaced p q).read text = (p.read text).bind fun first =>
      (afterGap q.read first.2).map fun second => (first.1 ++ second.1, second.2) := by
  rw [Pattern.read]
  cases p.read text <;> rfl

section

variable {p q : Pattern ν} {text rest : List Char} {pieces : List (Piece ν)}

/-- What is read after a gap is read from the text after it. -/
theorem exists_of_afterGap {read : List Char → Option (Reading ν)}
    (h : afterGap read text = some (pieces, rest)) :
    ∃ inner, read (gap text).2 = some (inner, rest) ∧ pieces = .plain (gap text).1 :: inner := by
  obtain ⟨⟨inner, last⟩, hinner, heq⟩ := Option.map_eq_some_iff.mp h
  obtain ⟨rfl, rfl⟩ := Prod.mk.inj heq
  exact ⟨inner, hinner, rfl⟩

namespace Pattern

/-- One character of the class is taken off the text. -/
theorem exists_of_read_one {isMember : Char → Bool}
    (h : (one isMember : Pattern ν).read text = some (pieces, rest)) :
    ∃ c, isMember c = true ∧ text = c :: rest ∧ pieces = [.plain [c]] := by
  cases text with
  | nil => contradiction
  | cons c text =>
    change (if isMember c then some ([.plain [c]], text) else none) = some (pieces, rest) at h
    split at h
    · next hc =>
      obtain ⟨rfl, rfl⟩ := Prod.mk.inj (Option.some.inj h)
      exact ⟨c, hc, rfl, rfl⟩
    · contradiction

/-- A fixed text is taken off the text. -/
theorem of_read_word {fixed : List Char}
    (h : (word fixed : Pattern ν).read text = some (pieces, rest)) :
    fixed ++ rest = text ∧ pieces = [.plain fixed] := by
  obtain ⟨last, hlast, heq⟩ := Option.map_eq_some_iff.mp h
  obtain ⟨rfl, rfl⟩ := Prod.mk.inj heq
  exact ⟨List.append_eq_of_isPrefixOf?_eq_some hlast, rfl⟩

/-- The end of the text is no piece. -/
theorem of_read_finish (h : (finish : Pattern ν).read text = some (pieces, rest)) :
    pieces = [] ∧ rest = text := by
  change (if text.isEmpty then some ([], text) else none) = some (pieces, rest) at h
  split at h
  · obtain ⟨rfl, rfl⟩ := Prod.mk.inj (Option.some.inj h)
    exact ⟨rfl, rfl⟩
  · contradiction

/-- Looking ahead takes nothing. -/
theorem of_read_notAhead (h : (notAhead p).read text = some (pieces, rest)) :
    pieces = [] ∧ rest = text := by
  change (if (p.read text).isSome then none else some ([], text)) = some (pieces, rest) at h
  split at h
  · contradiction
  · obtain ⟨rfl, rfl⟩ := Prod.mk.inj (Option.some.inj h)
    exact ⟨rfl, rfl⟩

/-- An alternative is read as one of the two patterns. -/
theorem of_read_either (h : (either p q).read text = some (pieces, rest)) :
    p.read text = some (pieces, rest) ∨ q.read text = some (pieces, rest) := by
  rw [read_either_eq, Option.or_eq_some_iff] at h
  exact h.imp_right And.right

/-- An optional pattern is read, or nothing is. -/
theorem of_read_optional (h : (optional p).read text = some (pieces, rest)) :
    p.read text = some (pieces, rest) ∨ pieces = [] ∧ rest = text := by
  have h : (p.read text).getD ([], text) = (pieces, rest) := Option.some.inj h
  cases hp : p.read text with
  | none =>
    rw [hp, Option.getD_none] at h
    obtain ⟨rfl, rfl⟩ := Prod.mk.inj h
    exact .inr ⟨rfl, rfl⟩
  | some reading =>
    rw [hp, Option.getD_some] at h
    exact .inl (congrArg some h)

/-- The second pattern is read from what the first one leaves. -/
theorem exists_of_read_joined (h : (joined p q).read text = some (pieces, rest)) :
    ∃ first middle second, p.read text = some (first, middle) ∧
      q.read middle = some (second, rest) ∧ pieces = first ++ second := by
  rw [read_joined_eq] at h
  obtain ⟨⟨first, middle⟩, hp, hmore⟩ := Option.bind_eq_some_iff.mp h
  obtain ⟨⟨second, last⟩, hq, heq⟩ := Option.map_eq_some_iff.mp hmore
  obtain ⟨rfl, rfl⟩ := Prod.mk.inj heq
  exact ⟨first, middle, second, hp, hq, rfl⟩

/-- The second pattern is read from what the first one and the gap leave. -/
theorem exists_of_read_spaced (h : (spaced p q).read text = some (pieces, rest)) :
    ∃ first middle second, p.read text = some (first, middle) ∧
      afterGap q.read middle = some (second, rest) ∧ pieces = first ++ second := by
  rw [read_spaced_eq] at h
  obtain ⟨⟨first, middle⟩, hp, hmore⟩ := Option.bind_eq_some_iff.mp h
  obtain ⟨⟨second, last⟩, hq, heq⟩ := Option.map_eq_some_iff.mp hmore
  obtain ⟨rfl, rfl⟩ := Prod.mk.inj heq
  exact ⟨first, middle, second, hp, hq, rfl⟩

/-- Nothing is read, or the further rounds are read from what the first one leaves. -/
theorem exists_of_read_spacedMany (h : (spacedMany p).read text = some (pieces, rest)) :
    (pieces = [] ∧ rest = text) ∨ ∃ first middle, p.read text = some (first, middle) ∧
      pieces = first ++ (rounds (afterGap p.read) middle middle).1 ∧
      rest = (rounds (afterGap p.read) middle middle).2 := by
  rw [Pattern.read] at h
  split at h
  · obtain ⟨rfl, rfl⟩ := Prod.mk.inj (Option.some.inj h)
    exact .inl ⟨rfl, rfl⟩
  · next first middle hp =>
    obtain ⟨rfl, rfl⟩ := Prod.mk.inj (Option.some.inj h)
    exact .inr ⟨first, middle, hp, rfl, rfl⟩

/-- A leaf holds the text of the pieces of its pattern. -/
theorem exists_of_read_leaf {name : ν} (h : (leaf name p).read text = some (pieces, rest)) :
    ∃ inner, p.read text = some (inner, rest) ∧ pieces = [.leaf name (Piece.textOf inner)] := by
  obtain ⟨⟨inner, last⟩, hinner, heq⟩ := Option.map_eq_some_iff.mp h
  obtain ⟨rfl, rfl⟩ := Prod.mk.inj heq
  exact ⟨inner, hinner, rfl⟩

/-- A branch holds the pieces of its pattern. -/
theorem exists_of_read_branch {name : ν} (h : (branch name p).read text = some (pieces, rest)) :
    ∃ inner, p.read text = some (inner, rest) ∧ pieces = [.branch name inner] := by
  obtain ⟨⟨inner, last⟩, hinner, heq⟩ := Option.map_eq_some_iff.mp h
  obtain ⟨rfl, rfl⟩ := Prod.mk.inj heq
  exact ⟨inner, hinner, rfl⟩

end Pattern

end

/-- A reader loses no character: its pieces and the text it leaves are the text it was given. -/
def Lossless (read : List Char → Option (Reading ν)) : Prop :=
  ∀ text pieces rest, read text = some (pieces, rest) → Piece.textOf pieces ++ rest = text

/-- Passing over blanks and a comment first loses no character. -/
theorem Lossless.afterGap {read : List Char → Option (Reading ν)} (h : Lossless read) :
    Lossless (afterGap read) := by
  intro text pieces rest hread
  obtain ⟨inner, hinner, rfl⟩ := exists_of_afterGap hread
  rw [Piece.textOf, Piece.text, List.append_assoc, h _ _ _ hinner, gap_append]

/-- Repeated reading loses no character. -/
theorem Lossless.rounds {read : List Char → Option (Reading ν)} (h : Lossless read)
    (bound text : List Char) :
    Piece.textOf (rounds read bound text).1 ++ (rounds read bound text).2 = text := by
  induction bound generalizing text with
  | nil => rfl
  | cons b bound ih =>
    rw [Grammar.rounds]
    split
    · rfl
    · next pieces rest hread =>
      rw [Piece.textOf_append, List.append_assoc, ih rest, h _ _ _ hread]

/-- Every pattern is read without loss. -/
theorem Pattern.lossless (p : Pattern ν) : Lossless p.read := by
  induction p with
  | one isMember =>
    intro text pieces rest h
    obtain ⟨c, -, rfl, rfl⟩ := exists_of_read_one h
    rfl
  | run isMember =>
    intro text pieces rest h
    obtain ⟨rfl, rfl⟩ := Prod.mk.inj (Option.some.inj h)
    simp [Piece.textOf, Piece.text]
  | word fixed =>
    intro text pieces rest h
    obtain ⟨rfl, rfl⟩ := of_read_word h
    simp [Piece.textOf, Piece.text]
  | finish =>
    intro text pieces rest h
    obtain ⟨rfl, rfl⟩ := of_read_finish h
    rfl
  | notAhead p ih =>
    intro text pieces rest h
    obtain ⟨rfl, rfl⟩ := of_read_notAhead h
    rfl
  | either p q ihp ihq =>
    intro text pieces rest h
    exact (of_read_either h).elim (ihp _ _ _) (ihq _ _ _)
  | optional p ih =>
    intro text pieces rest h
    obtain h | ⟨rfl, rfl⟩ := of_read_optional h
    · exact ih _ _ _ h
    · rfl
  | joined p q ihp ihq =>
    intro text pieces rest h
    obtain ⟨first, middle, second, hp, hq, rfl⟩ := exists_of_read_joined h
    rw [Piece.textOf_append, List.append_assoc, ihq _ _ _ hq, ihp _ _ _ hp]
  | spaced p q ihp ihq =>
    intro text pieces rest h
    obtain ⟨first, middle, second, hp, hq, rfl⟩ := exists_of_read_spaced h
    rw [Piece.textOf_append, List.append_assoc, ihq.afterGap _ _ _ hq, ihp _ _ _ hp]
  | many p ih =>
    intro text pieces rest h
    obtain ⟨rfl, rfl⟩ := Prod.mk.inj (Option.some.inj h)
    exact ih.rounds text text
  | spacedMany p ih =>
    intro text pieces rest h
    obtain ⟨rfl, rfl⟩ | ⟨first, middle, hp, rfl, rfl⟩ := exists_of_read_spacedMany h
    · rfl
    · rw [Piece.textOf_append, List.append_assoc, ih.afterGap.rounds, ih _ _ _ hp]
  | leaf name p ih =>
    intro text pieces rest h
    obtain ⟨inner, hinner, rfl⟩ := exists_of_read_leaf h
    simpa [Piece.textOf, Piece.text] using ih _ _ _ hinner
  | branch name p ih =>
    intro text pieces rest h
    obtain ⟨inner, hinner, rfl⟩ := exists_of_read_branch h
    simpa [Piece.textOf, Piece.text] using ih _ _ _ hinner

/-- A leaf keeps exactly the text that its pattern takes. -/
theorem Pattern.read_leaf (name : ν) (p : Pattern ν) (text taken rest : List Char)
    (pieces : List (Piece ν)) (htext : taken ++ rest = text)
    (h : p.read text = some (pieces, rest)) :
    (Pattern.leaf name p).read text = some ([.leaf name taken], rest) := by
  have hpieces : Piece.textOf pieces = taken :=
    List.append_cancel_right ((p.lossless _ _ _ h).trans htext.symm)
  show (p.read text).map (fun inner => ([Piece.leaf name (Piece.textOf inner.1)], inner.2)) = _
  rw [h, Option.map_some, hpieces]

/-- A branch keeps the pieces that its pattern takes. -/
theorem Pattern.read_branch (name : ν) (p : Pattern ν) (text rest : List Char)
    (pieces : List (Piece ν)) (h : p.read text = some (pieces, rest)) :
    (Pattern.branch name p).read text = some ([.branch name pieces], rest) := by
  show (p.read text).map (fun inner => ([Piece.branch name inner.1], inner.2)) = _
  rw [h, Option.map_some]

/-- The members of a joined pattern are read one directly after the other. -/
theorem Pattern.read_joined (p q : Pattern ν) (text middle rest : List Char)
    (first second : List (Piece ν)) (hp : p.read text = some (first, middle))
    (hq : q.read middle = some (second, rest)) :
    (Pattern.joined p q).read text = some (first ++ second, rest) := by
  rw [read_joined_eq, hp, Option.bind_some, hq, Option.map_some]

/-- The members of a spaced pattern are read with the blanks between them kept. -/
theorem Pattern.read_spaced (p q : Pattern ν) (text middle after rest blanks : List Char)
    (first second : List (Piece ν)) (hp : p.read text = some (first, middle))
    (hgap : gap middle = (blanks, after)) (hq : q.read after = some (second, rest)) :
    (Pattern.spaced p q).read text = some (first ++ .plain blanks :: second, rest) := by
  have hafter : afterGap q.read middle = some (.plain blanks :: second, rest) := by
    rw [afterGap, hgap, hq, Option.map_some]
  rw [read_spaced_eq, hp, Option.bind_some, hafter, Option.map_some]

/-- A spaced pattern cannot be read where its first member cannot. -/
theorem Pattern.read_spaced_eq_none (p q : Pattern ν) (text : List Char)
    (h : p.read text = none) : (Pattern.spaced p q).read text = none := by
  rw [read_spaced_eq, h, Option.bind_none]

/-- The second of two patterns is read where the first cannot be. -/
theorem Pattern.read_either_right (p q : Pattern ν) (text : List Char) (h : p.read text = none) :
    (Pattern.either p q).read text = q.read text := by
  rw [read_either_eq, h, Option.none_or]

/-- The first of two patterns is read where it can be. -/
theorem Pattern.read_either_left (p q : Pattern ν) (text : List Char) (reading : Reading ν)
    (h : p.read text = some reading) : (Pattern.either p q).read text = some reading := by
  rw [read_either_eq, h, Option.some_or]

/-- Items that each take at least one place in a list are no more than its places. -/
theorem length_le_flatMap {α β : Type} (items : List α) (print : α → List β)
    (h : ∀ item ∈ items, print item ≠ []) : items.length ≤ (items.flatMap print).length := by
  induction items with
  | nil => exact Nat.zero_le _
  | cons item items ih =>
    have hfirst := List.length_pos_iff.mpr (h item List.mem_cons_self)
    have hrest := ih fun i hi => h i (List.mem_cons_of_mem item hi)
    rw [List.flatMap_cons, List.length_append, List.length_cons]
    omega

/-- Repeated reading takes a text item by item.

Every item is read as its own pieces wherever a text follows that may stand after an item, every
item may stand after an item, and the last text may stand there and cannot be read. -/
theorem rounds_flatMap {α : Type} (read : List Char → Option (Reading ν)) (print : α → List Char)
    (pieces : α → List (Piece ν)) (follows : List Char → Prop) (items : List α)
    (rest : List Char) (hrest : follows rest) (hstop : read rest = none)
    (hfollows : ∀ item ∈ items, ∀ more, follows (print item ++ more))
    (hread : ∀ item ∈ items, ∀ more, follows more →
      read (print item ++ more) = some (pieces item, more))
    (bound : List Char) (hbound : items.length ≤ bound.length) :
    rounds read bound (items.flatMap print ++ rest) = (items.flatMap pieces, rest) := by
  induction items generalizing bound with
  | nil => cases bound <;> simp [rounds, hstop]
  | cons item items ih =>
    obtain ⟨b, bound, rfl⟩ := List.exists_cons_of_length_pos (by
      simp only [List.length_cons] at hbound
      omega : 0 < bound.length)
    have hmore : follows (items.flatMap print ++ rest) := by
      cases items with
      | nil => exact hrest
      | cons next items =>
        rw [List.flatMap_cons, List.append_assoc]
        exact hfollows next (by simp) _
    have htail := ih (fun i hi => hfollows i (List.mem_cons_of_mem item hi))
      (fun i hi => hread i (List.mem_cons_of_mem item hi)) bound (by simpa using hbound)
    rw [List.flatMap_cons, List.append_assoc, rounds, hread item List.mem_cons_self _ hmore]
    simp only [htail, List.flatMap_cons]

end UnitSystems.Grammar
