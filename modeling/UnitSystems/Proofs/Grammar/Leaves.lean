import UnitSystems.Proofs.Grammar.Reading

/-!
# The leaves of what was read

Leaves may lie deep inside branches. What each leaf of a pattern demands of its text holds for
every leaf of that name among the pieces that the pattern is read as.
-/

namespace UnitSystems.Grammar

variable {ν : Type}

mutual

/-- All leaves of a piece, with their texts. -/
def Piece.leaves : Piece ν → List (ν × List Char)
  | .plain _ => []
  | .leaf name text => [(name, text)]
  | .branch _ parts => Piece.leavesOf parts

/-- All leaves of pieces, with their texts. -/
def Piece.leavesOf : List (Piece ν) → List (ν × List Char)
  | [] => []
  | piece :: rest => piece.leaves ++ Piece.leavesOf rest

end

/-- The leaves of two runs of pieces stand one after the other. -/
theorem Piece.leavesOf_append (first second : List (Piece ν)) :
    Piece.leavesOf (first ++ second) = Piece.leavesOf first ++ Piece.leavesOf second := by
  induction first with
  | nil => rfl
  | cons piece rest ih => simp [Piece.leavesOf, ih]

/-- Pieces whose leaves all meet a demand. -/
def Piece.Meet (demand : ν → List Char → Prop) (pieces : List (Piece ν)) : Prop :=
  ∀ leaf ∈ Piece.leavesOf pieces, demand leaf.1 leaf.2

variable {demand : ν → List Char → Prop}

/-- No pieces have no leaves. -/
theorem Piece.meet_nil : Piece.Meet demand [] := by
  simp [Meet, leavesOf]

/-- Plain text has no leaves. -/
theorem Piece.meet_plain (text : List Char) : Piece.Meet demand [.plain text] := by
  simp [Meet, leavesOf, leaves]

/-- Two runs of pieces meet a demand when both do. -/
theorem Piece.meet_append_iff (first second : List (Piece ν)) :
    Piece.Meet demand (first ++ second) ↔ Piece.Meet demand first ∧ Piece.Meet demand second := by
  simp only [Meet, leavesOf_append, List.forall_mem_append]

/-- A piece and the pieces after it meet a demand when both do. -/
theorem Piece.meet_cons_iff (piece : Piece ν) (rest : List (Piece ν)) :
    Piece.Meet demand (piece :: rest) ↔ Piece.Meet demand [piece] ∧ Piece.Meet demand rest := by
  rw [← List.singleton_append, meet_append_iff]

/-- The leaves of a branch are those of the pieces inside it. -/
theorem Piece.meet_branch_iff (name : ν) (parts : List (Piece ν)) :
    Piece.Meet demand [.branch name parts] ↔ Piece.Meet demand parts := by
  simp only [Meet, leavesOf, leaves, List.append_nil]

/-- A leaf meets a demand when its text does. -/
theorem Piece.meet_leaf_iff (name : ν) (text : List Char) :
    Piece.Meet demand [.leaf name text] ↔ demand name text := by
  simp [Meet, leavesOf, leaves]

/-- A reader whose leaves all meet a demand. -/
def Meets (demand : ν → List Char → Prop) (read : List Char → Option (Reading ν)) : Prop :=
  ∀ text pieces rest, read text = some (pieces, rest) → Piece.Meet demand pieces

/-- Passing over blanks and a comment first adds no leaf. -/
theorem Meets.afterGap {read : List Char → Option (Reading ν)} (h : Meets demand read) :
    Meets demand (afterGap read) := by
  intro text pieces rest hread
  obtain ⟨inner, hinner, rfl⟩ := exists_of_afterGap hread
  exact (Piece.meet_cons_iff _ _).mpr ⟨Piece.meet_plain _, h _ _ _ hinner⟩

/-- Repeated reading has the leaves of its rounds. -/
theorem Meets.rounds {read : List Char → Option (Reading ν)} (h : Meets demand read)
    (bound text : List Char) : Piece.Meet demand (rounds read bound text).1 := by
  induction bound generalizing text with
  | nil => exact Piece.meet_nil
  | cons b bound ih =>
    rw [Grammar.rounds]
    split
    · exact Piece.meet_nil
    · next pieces rest hread =>
      exact (Piece.meet_append_iff _ _).mpr ⟨h _ _ _ hread, ih rest⟩

/-- Every leaf of a pattern demands of its text what its name does. -/
def Pattern.Demands (demand : ν → List Char → Prop) : Pattern ν → Prop
  | .one _ | .run _ | .word _ | .finish | .notAhead _ => True
  | .either p q | .joined p q | .spaced p q => p.Demands demand ∧ q.Demands demand
  | .optional p | .many p | .spacedMany p | .branch _ p => p.Demands demand
  | .leaf name p => ∀ text pieces rest, p.read text = some (pieces, rest) →
      demand name (Piece.textOf pieces)

/-- The leaves that a pattern is read as meet what its leaves demand. -/
theorem Pattern.meets (p : Pattern ν) (h : p.Demands demand) : Meets demand p.read := by
  induction p with
  | one isMember =>
    intro text pieces rest hread
    obtain ⟨c, -, -, rfl⟩ := exists_of_read_one hread
    exact Piece.meet_plain _
  | run isMember =>
    intro text pieces rest hread
    obtain ⟨rfl, -⟩ := Prod.mk.inj (Option.some.inj hread)
    exact Piece.meet_plain _
  | word fixed =>
    intro text pieces rest hread
    obtain ⟨-, rfl⟩ := of_read_word hread
    exact Piece.meet_plain _
  | finish =>
    intro text pieces rest hread
    obtain ⟨rfl, -⟩ := of_read_finish hread
    exact Piece.meet_nil
  | notAhead p =>
    intro text pieces rest hread
    obtain ⟨rfl, -⟩ := of_read_notAhead hread
    exact Piece.meet_nil
  | either p q ihp ihq =>
    intro text pieces rest hread
    exact (of_read_either hread).elim (ihp h.1 _ _ _) (ihq h.2 _ _ _)
  | optional p ih =>
    intro text pieces rest hread
    obtain hread | ⟨rfl, -⟩ := of_read_optional hread
    · exact ih h _ _ _ hread
    · exact Piece.meet_nil
  | joined p q ihp ihq =>
    intro text pieces rest hread
    obtain ⟨first, middle, second, hp, hq, rfl⟩ := exists_of_read_joined hread
    exact (Piece.meet_append_iff _ _).mpr ⟨ihp h.1 _ _ _ hp, ihq h.2 _ _ _ hq⟩
  | spaced p q ihp ihq =>
    intro text pieces rest hread
    obtain ⟨first, middle, second, hp, hq, rfl⟩ := exists_of_read_spaced hread
    exact (Piece.meet_append_iff _ _).mpr ⟨ihp h.1 _ _ _ hp, (ihq h.2).afterGap _ _ _ hq⟩
  | many p ih =>
    intro text pieces rest hread
    obtain ⟨rfl, -⟩ := Prod.mk.inj (Option.some.inj hread)
    exact (ih h).rounds text text
  | spacedMany p ih =>
    intro text pieces rest hread
    obtain ⟨rfl, -⟩ | ⟨first, middle, hp, rfl, -⟩ := exists_of_read_spacedMany hread
    · exact Piece.meet_nil
    · exact (Piece.meet_append_iff _ _).mpr ⟨ih h _ _ _ hp, (ih h).afterGap.rounds _ _⟩
  | leaf name p =>
    intro text pieces rest hread
    obtain ⟨inner, hinner, rfl⟩ := exists_of_read_leaf hread
    exact (Piece.meet_leaf_iff _ _).mpr (h _ _ _ hinner)
  | branch name p ih =>
    intro text pieces rest hread
    obtain ⟨inner, hinner, rfl⟩ := exists_of_read_branch hread
    exact (Piece.meet_branch_iff _ _).mpr (ih h _ _ _ hinner)

end UnitSystems.Grammar
