import Mathlib.Data.List.DropRight
import UnitSystems.Proofs.Grammar.Padding

/-!
# Where lines begin

What stands behind a text begins a line when nothing but blanks stands in the text since its last
line break. A pattern marks its line when every text that it reads has something else there, so
that what follows on the same line begins none. Which patterns do is decided on their structure:
what marks the line may only be followed by what never leads to the next line, or by another mark.
-/

namespace UnitSystems.Grammar

variable {ν : Type}

/-- What stands behind the text begins a line: only blanks stand since the last line break. -/
def OpensLine (text : List Char) : Prop :=
  ∀ c ∈ text.rtakeWhile fun c => !isLineBreak c, isBlank c = true

instance (text : List Char) : Decidable (OpensLine text) :=
  List.decidableBAll (isBlank · = true) _

/-- A line begins behind a line break, and behind a blank at the start of one. -/
theorem opensLine_concat_iff (text : List Char) (c : Char) :
    OpensLine (text ++ [c]) ↔ isLineBreak c = true ∨ OpensLine text ∧ isBlank c = true := by
  unfold OpensLine
  rw [List.rtakeWhile_concat]
  cases hc : isLineBreak c <;> simp [or_imp, forall_and]

namespace OpensLine

/-- The first line begins at the start of the text. -/
theorem nil : OpensLine [] := by
  simp [OpensLine]

variable {first second : List Char}

/-- Texts that each lead to the start of a line do so together. -/
theorem append (hfirst : OpensLine first) (hsecond : OpensLine second) :
    OpensLine (first ++ second) := by
  induction second using List.reverseRecOn with
  | nil => rwa [List.append_nil]
  | append_singleton second c ih =>
    rw [← List.append_assoc, opensLine_concat_iff]
    exact ((opensLine_concat_iff _ _).mp hsecond).imp_right fun h => ⟨ih h.1, h.2⟩

/-- A text with a line break in it leads to the start of a line whatever stands before it. -/
theorem append_of_lineBreak (first : List Char) (hsecond : OpensLine second)
    (hbreak : ∃ c ∈ second, isLineBreak c = true) : OpensLine (first ++ second) := by
  induction second using List.reverseRecOn with
  | nil => simp at hbreak
  | append_singleton second d ih =>
    rw [← List.append_assoc, opensLine_concat_iff]
    by_cases hd : isLineBreak d = true
    · exact .inl hd
    · obtain ⟨hopens, hblank⟩ := ((opensLine_concat_iff _ _).mp hsecond).resolve_left hd
      refine .inr ⟨ih hopens ?_, hblank⟩
      obtain ⟨c, hmem, hc⟩ := hbreak
      rcases List.mem_append.mp hmem with hmem | hmem
      · exact ⟨c, hmem, hc⟩
      · exact absurd (List.mem_singleton.mp hmem ▸ hc) hd

/-- The second of two texts that lead to the start of a line does so alone. -/
theorem of_append_right (h : OpensLine (first ++ second)) : OpensLine second := by
  induction second using List.reverseRecOn with
  | nil => exact nil
  | append_singleton second c ih =>
    rw [← List.append_assoc, opensLine_concat_iff] at h
    exact (opensLine_concat_iff _ _).mpr (h.imp_right fun h => ⟨ih h.1, h.2⟩)

/-- Without a line break behind it, a text leads to the start of the line that it is on. -/
theorem of_append_left (h : OpensLine (first ++ second))
    (hbreak : ∀ c ∈ second, isLineBreak c = false) : OpensLine first := by
  induction second using List.reverseRecOn with
  | nil => rwa [List.append_nil] at h
  | append_singleton second c ih =>
    rw [List.forall_mem_append, List.forall_mem_singleton] at hbreak
    rw [← List.append_assoc, opensLine_concat_iff, hbreak.2] at h
    exact ih (h.resolve_left Bool.false_ne_true).1 hbreak.1

end OpensLine

/-- A text that never leads from within a line to the start of the next one: it breaks no line, or
leaves a mark on its last. -/
def StaysInLine (text : List Char) : Prop :=
  OpensLine text → ∀ c ∈ text, isLineBreak c = false

namespace StaysInLine

variable {first second : List Char}

/-- Texts that stay in their lines do so together. -/
theorem append (hfirst : StaysInLine first) (hsecond : StaysInLine second) :
    StaysInLine (first ++ second) := by
  intro h
  have hbreak := hsecond h.of_append_right
  exact List.forall_mem_append.mpr ⟨hfirst (h.of_append_left hbreak), hbreak⟩

/-- A mark on the line is still there behind a text that stays in it. -/
theorem not_opensLine (hsecond : StaysInLine second) (hfirst : ¬OpensLine first) :
    ¬OpensLine (first ++ second) := fun h =>
  hfirst (h.of_append_left (hsecond h.of_append_right))

/-- A text without line breaks stays in its line. -/
theorem of_forall (h : ∀ c ∈ first, isLineBreak c = false) : StaysInLine first := fun _ => h

/-- A text that leaves a mark stays in its line. -/
theorem of_not_opensLine (h : ¬OpensLine first) : StaysInLine first := fun hopens => absurd hopens h

end StaysInLine

/-- A gap breaks no line. -/
theorem staysInLine_gap (text : List Char) : StaysInLine (gap text).1 := by
  have hblanks : ∀ c ∈ text.takeWhile isBlank, isLineBreak c = false := by
    intro c hc
    by_contra hbreak
    have hblank := isBlank_of_isLineBreak c (by simpa using hbreak)
    rw [List.mem_takeWhile_imp hc] at hblank
    contradiction
  refine .of_forall ?_
  unfold gap
  simp only [List.span_eq_takeWhile_dropWhile]
  split
  · refine List.forall_mem_append.mpr ⟨hblanks, fun c hc => ?_⟩
    simpa using List.mem_takeWhile_imp hc
  · exact hblanks

/-- A reader whose readings have a property of texts. -/
def Reads (holds : List Char → Prop) (read : List Char → Option (Reading ν)) : Prop :=
  ∀ text pieces rest, read text = some (pieces, rest) → holds (Piece.textOf pieces)

/-- Passing over a gap first stays in the line. -/
theorem Reads.afterGap {read : List Char → Option (Reading ν)} (h : Reads StaysInLine read) :
    Reads StaysInLine (afterGap read) := by
  intro text pieces rest hread
  obtain ⟨inner, hinner, rfl⟩ := exists_of_afterGap hread
  exact (staysInLine_gap text).append (h _ _ _ hinner)

/-- Repeated reading stays in the line when each round does. -/
theorem Reads.rounds {read : List Char → Option (Reading ν)} (h : Reads StaysInLine read)
    (bound text : List Char) : StaysInLine (Piece.textOf (rounds read bound text).1) := by
  induction bound generalizing text with
  | nil => exact .of_forall (by simp [Grammar.rounds, Piece.textOf])
  | cons b bound ih =>
    rw [Grammar.rounds]
    split
    · exact .of_forall (by simp [Piece.textOf])
    · next pieces rest hread =>
      rw [Piece.textOf_append]
      exact (h _ _ _ hread).append (ih rest)

namespace Pattern

mutual

/-- Whether no reading leads from within a line to the start of the next one. -/
def staysInLine : Pattern ν → Bool
  | .one isMember | .run isMember => !isMember '\n' && !isMember '\r'
  | .word fixed => fixed.all fun c => !isLineBreak c
  | .finish | .notAhead _ => true
  | .either p q => p.staysInLine && q.staysInLine
  | .joined p q | .spaced p q => q.marksLine || (p.staysInLine && q.staysInLine)
  | .optional p | .many p | .spacedMany p | .leaf _ p | .branch _ p => p.staysInLine

/-- Whether every reading leaves something that is no blank on its last line. -/
def marksLine : Pattern ν → Bool
  | .one isMember => [' ', '\t', '\n', '\r'].all fun c => !isMember c
  | .word fixed => !decide (OpensLine fixed)
  | .either p q => p.marksLine && q.marksLine
  | .joined p q | .spaced p q => q.marksLine || (p.marksLine && q.staysInLine)
  | .leaf _ p | .branch _ p => p.marksLine
  | .run _ | .finish | .notAhead _ | .optional _ | .many _ | .spacedMany _ => false

end

/-- A character of a class without line breaks breaks no line. -/
theorem isLineBreak_of_isMember {isMember : Char → Bool}
    (h : (!isMember '\n' && !isMember '\r') = true) (c : Char) (hc : isMember c = true) :
    isLineBreak c = false := by
  rw [Bool.and_eq_true, Bool.not_eq_true', Bool.not_eq_true'] at h
  by_contra hbreak
  simp only [isLineBreak, Bool.not_eq_false, Bool.or_eq_true, beq_iff_eq] at hbreak
  rcases hbreak with rfl | rfl <;> simp [h] at hc

/-- A character of a class without line breaks and blanks is a mark. -/
theorem not_opensLine_of_isMember {isMember : Char → Bool}
    (h : ([' ', '\t', '\n', '\r'].all fun c => !isMember c) = true) (c : Char)
    (hc : isMember c = true) : ¬OpensLine [c] := by
  intro hopens
  have hclass : isLineBreak c = true ∨ isBlank c = true :=
    ((opensLine_concat_iff [] c).mp hopens).imp_right And.right
  simp only [isLineBreak, isBlank, Bool.or_eq_true, beq_iff_eq] at hclass
  rcases hclass with (rfl | rfl) | (rfl | rfl) <;> simp [hc] at h

/-- Texts one after the other, each from a reader that stays in its line or leaves a mark. -/
theorem staysInLine_append {p q : Pattern ν} {first second : List Char}
    (h : (q.marksLine || (p.staysInLine && q.staysInLine)) = true)
    (hmarks : q.marksLine = true → ¬OpensLine second)
    (hfirst : p.staysInLine = true → StaysInLine first)
    (hsecond : q.staysInLine = true → StaysInLine second) : StaysInLine (first ++ second) := by
  simp only [Bool.or_eq_true, Bool.and_eq_true] at h
  rcases h with hq | ⟨hp, hq⟩
  · exact .of_not_opensLine fun hopens => hmarks hq hopens.of_append_right
  · exact (hfirst hp).append (hsecond hq)

/-- Texts one after the other, the last mark of which is never left behind. -/
theorem not_opensLine_append {p q : Pattern ν} {first second : List Char}
    (h : (q.marksLine || (p.marksLine && q.staysInLine)) = true)
    (hmarks : q.marksLine = true → ¬OpensLine second)
    (hfirst : p.marksLine = true → ¬OpensLine first)
    (hsecond : q.staysInLine = true → StaysInLine second) : ¬OpensLine (first ++ second) := by
  simp only [Bool.or_eq_true, Bool.and_eq_true] at h
  rcases h with hq | ⟨hp, hq⟩
  · exact fun hopens => hmarks hq hopens.of_append_right
  · exact (hsecond hq).not_opensLine (hfirst hp)

/-- The readings of a pattern stay in their line and mark it as its structure says. -/
theorem reads_line (p : Pattern ν) :
    (p.staysInLine = true → Reads StaysInLine p.read) ∧
      (p.marksLine = true → Reads (fun text => ¬OpensLine text) p.read) := by
  induction p with
  | one isMember =>
    refine ⟨fun hp text pieces rest h => ?_, fun hp text pieces rest h => ?_⟩ <;>
      obtain ⟨c, hc, -, rfl⟩ := exists_of_read_one h <;>
      simp only [Piece.textOf, Piece.text, List.append_nil]
    · exact .of_forall (List.forall_mem_singleton.mpr (isLineBreak_of_isMember hp c hc))
    · exact not_opensLine_of_isMember hp c hc
  | run isMember =>
    refine ⟨fun hp text pieces rest h => ?_, fun hp => absurd hp Bool.false_ne_true⟩
    obtain ⟨rfl, -⟩ := Prod.mk.inj (Option.some.inj h)
    simp only [Piece.textOf, Piece.text, List.append_nil]
    exact .of_forall fun c hc => isLineBreak_of_isMember hp c (List.mem_takeWhile_imp hc)
  | word fixed =>
    refine ⟨fun hp text pieces rest h => ?_, fun hp text pieces rest h => ?_⟩ <;>
      obtain ⟨-, rfl⟩ := of_read_word h <;>
      simp only [Piece.textOf, Piece.text, List.append_nil]
    · exact .of_forall fun c hc => by simpa using List.all_eq_true.mp hp c hc
    · simpa [marksLine] using hp
  | finish =>
    refine ⟨fun _ text pieces rest h => ?_, fun hp => absurd hp Bool.false_ne_true⟩
    obtain ⟨rfl, -⟩ := of_read_finish h
    exact .of_forall (by simp [Piece.textOf])
  | notAhead p =>
    refine ⟨fun _ text pieces rest h => ?_, fun hp => absurd hp Bool.false_ne_true⟩
    obtain ⟨rfl, -⟩ := of_read_notAhead h
    exact .of_forall (by simp [Piece.textOf])
  | either p q ihp ihq =>
    refine ⟨fun hp text pieces rest h => ?_, fun hp text pieces rest h => ?_⟩ <;>
      simp only [staysInLine, marksLine, Bool.and_eq_true] at hp
    · exact (of_read_either h).elim (ihp.1 hp.1 _ _ _) (ihq.1 hp.2 _ _ _)
    · exact (of_read_either h).elim (ihp.2 hp.1 _ _ _) (ihq.2 hp.2 _ _ _)
  | optional p ih =>
    refine ⟨fun hp text pieces rest h => ?_, fun hp => absurd hp Bool.false_ne_true⟩
    obtain h | ⟨rfl, -⟩ := of_read_optional h
    · exact ih.1 hp _ _ _ h
    · exact .of_forall (by simp [Piece.textOf])
  | joined p q ihp ihq =>
    refine ⟨fun hp text pieces rest h => ?_, fun hp text pieces rest h => ?_⟩ <;>
      obtain ⟨first, middle, second, hfirst, hsecond, rfl⟩ := exists_of_read_joined h <;>
      rw [Piece.textOf_append]
    · exact staysInLine_append hp (fun hq => ihq.2 hq _ _ _ hsecond)
        (fun hp => ihp.1 hp _ _ _ hfirst) (fun hq => ihq.1 hq _ _ _ hsecond)
    · exact not_opensLine_append hp (fun hq => ihq.2 hq _ _ _ hsecond)
        (fun hp => ihp.2 hp _ _ _ hfirst) (fun hq => ihq.1 hq _ _ _ hsecond)
  | spaced p q ihp ihq =>
    have hafter (hq : q.marksLine = true) :
        Reads (fun text => ¬OpensLine text) (Grammar.afterGap q.read) := by
      intro text pieces rest h
      obtain ⟨inner, hinner, rfl⟩ := exists_of_afterGap h
      exact fun hopens => ihq.2 hq _ _ _ hinner hopens.of_append_right
    refine ⟨fun hp text pieces rest h => ?_, fun hp text pieces rest h => ?_⟩ <;>
      obtain ⟨first, middle, second, hfirst, hsecond, rfl⟩ := exists_of_read_spaced h <;>
      rw [Piece.textOf_append]
    · exact staysInLine_append hp (fun hq => hafter hq _ _ _ hsecond)
        (fun hp => ihp.1 hp _ _ _ hfirst) (fun hq => (ihq.1 hq).afterGap _ _ _ hsecond)
    · exact not_opensLine_append hp (fun hq => hafter hq _ _ _ hsecond)
        (fun hp => ihp.2 hp _ _ _ hfirst) (fun hq => (ihq.1 hq).afterGap _ _ _ hsecond)
  | many p ih =>
    refine ⟨fun hp text pieces rest h => ?_, fun hp => absurd hp Bool.false_ne_true⟩
    obtain ⟨rfl, -⟩ := Prod.mk.inj (Option.some.inj h)
    exact (ih.1 hp).rounds text text
  | spacedMany p ih =>
    refine ⟨fun hp text pieces rest h => ?_, fun hp => absurd hp Bool.false_ne_true⟩
    obtain ⟨rfl, -⟩ | ⟨first, middle, hfirst, rfl, -⟩ := exists_of_read_spacedMany h
    · exact .of_forall (by simp [Piece.textOf])
    · rw [Piece.textOf_append]
      exact (ih.1 hp _ _ _ hfirst).append ((ih.1 hp).afterGap.rounds middle middle)
  | leaf name p ih =>
    refine ⟨fun hp text pieces rest h => ?_, fun hp text pieces rest h => ?_⟩ <;>
      obtain ⟨inner, hinner, rfl⟩ := exists_of_read_leaf h <;>
      simp only [Piece.textOf, Piece.text, List.append_nil]
    · exact ih.1 hp _ _ _ hinner
    · exact ih.2 hp _ _ _ hinner
  | branch name p ih =>
    refine ⟨fun hp text pieces rest h => ?_, fun hp text pieces rest h => ?_⟩ <;>
      obtain ⟨inner, hinner, rfl⟩ := exists_of_read_branch h <;>
      simp only [Piece.textOf, Piece.text, List.append_nil]
    · exact ih.1 hp _ _ _ hinner
    · exact ih.2 hp _ _ _ hinner

/-- A pattern that marks its line leaves something that is no blank on it. -/
theorem not_opensLine_of_read {p : Pattern ν} (hp : p.marksLine = true) {text rest : List Char}
    {pieces : List (Piece ν)} (h : p.read text = some (pieces, rest)) :
    ¬OpensLine (Piece.textOf pieces) :=
  p.reads_line.2 hp text pieces rest h

end Pattern

/-- A system leaves a mark on its last line, whatever its last directive ends with. -/
theorem marksLine_system : Form.system.marksLine = true := by
  decide +kernel

end UnitSystems.Grammar
