import UnitSystems.Proofs.DefinitionFile.Systems
import UnitSystems.Proofs.Text.Places

/-!
# Sound spans

A span is sound for a text if it marks a part of it that begins and ends between two characters, and
if its line and its column are those of its first character. The pieces of a reading fill the text
one after the other, so every part that is found among them has a sound span, and so has the place
at which a reading fails.
-/

namespace UnitSystems

open Grammar

/-- A span that marks a part of a text. -/
structure Span.IsSound (span : Span) (text : String) : Prop where
  ordered : span.start ≤ span.stop
  bounded : span.stop ≤ text.utf8ByteSize
  startValid : String.Pos.Raw.IsValid text ⟨span.start⟩
  stopValid : String.Pos.Raw.IsValid text ⟨span.stop⟩
  line : span.line = 1 + (splitAtByte span.start text.toList).1.count '\n'
  column : span.column = 1 + (lastLine (splitAtByte span.start text.toList).1).length

/-- A span that begins with a word, which ends where no further character of a class follows. -/
structure Span.BeginsWith (span : Span) (word : List Char) (isMember : Char → Bool)
    (text : List Char) : Prop where
  inside : word <+: between span.start span.stop text
  ends : ∀ c ∈ ((splitAtByte span.start text).2.drop word.length).head?, isMember c = false

/-- A part of a text that stands in it at a place. -/
def StandsAt (text : List Char) (place : Place) (part : List Char) : Prop :=
  ∃ before after, text = before ++ (part ++ after) ∧ place = Place.after {} before

/-- The bytes of what a text begins with end between two of its characters. -/
theorem isValid_utf8Len (text : String) (before after : List Char)
    (h : text.toList = before ++ after) :
    String.Pos.Raw.IsValid text ⟨String.utf8Len before⟩ := by
  rw [String.Pos.Raw.isValid_iff_exists_append]
  refine ⟨String.ofList before, String.ofList after, ?_, ?_⟩
  · rw [← String.ofList_append, ← h, String.ofList_toList]
  · rw [String.rawEndPos_ofList]

namespace StandsAt

variable {text : List Char} {place : Place} {first second : List Char}

/-- The span of a part of a text is sound. -/
theorem isSound {text : String} {part : List Char} (h : StandsAt text.toList place part) :
    (Span.covering place part).IsSound text := by
  obtain ⟨before, after, htext, rfl⟩ := h
  obtain ⟨hstart, hstop⟩ := bytes_covering before part
  have hsplit : splitAtByte (String.utf8Len before) text.toList = (before, part ++ after) := by
    rw [htext, splitAtByte_append]
  refine ⟨Place.offset_le_after _ part, ?_, ?_, ?_, ?_, ?_⟩
  · rw [hstop, ← String.utf8Len_toList, htext, ← List.append_assoc,
      String.utf8Len_append (before ++ part)]
    exact Nat.le_add_right _ _
  · rw [hstart]
    exact isValid_utf8Len text before _ htext
  · rw [hstop]
    exact isValid_utf8Len text _ after (by rw [htext, List.append_assoc])
  · rw [hstart, hsplit]
    exact (Place.after_eq {} before).2
  · rw [hstart, hsplit]
    exact Place.column_after before

/-- The first of two parts stands where both do. -/
theorem left (h : StandsAt text place (first ++ second)) : StandsAt text place first := by
  obtain ⟨before, after, rfl, hplace⟩ := h
  exact ⟨before, second ++ after, by rw [List.append_assoc], hplace⟩

/-- The second of two parts stands behind the first. -/
theorem right (h : StandsAt text place (first ++ second)) :
    StandsAt text (place.after first) second := by
  obtain ⟨before, after, rfl, rfl⟩ := h
  exact ⟨before ++ first, after, by simp only [List.append_assoc], (Place.after_append _ _ _).symm⟩

/-- What is read of a text stands at its start. -/
theorem of_read {p : Pattern Part} {text rest : List Char} {pieces : List (Piece Part)}
    (h : p.read text = some (pieces, rest)) : StandsAt text {} (Piece.textOf pieces) :=
  ⟨[], rest, (p.lossless _ _ _ h).symm, rfl⟩

/-- The pieces of a part stand at their places. -/
theorem of_mem_located {parts : List (Piece Part)} (h : StandsAt text place (Piece.textOf parts)) :
    ∀ entry ∈ located place parts, StandsAt text entry.1 entry.2.text := by
  induction parts generalizing place with
  | nil => simp [located]
  | cons piece parts ih => exact List.forall_mem_cons.mpr ⟨h.left, ih h.right⟩

end StandsAt

/-- Pieces stand one behind the other. -/
theorem pairwise_located (place : Place) (parts : List (Piece Part)) :
    (∀ entry ∈ located place parts, place.offset ≤ entry.1.offset) ∧
      (located place parts).Pairwise fun first second =>
        (first.1.after first.2.text).offset ≤ second.1.offset := by
  induction parts generalizing place with
  | nil => simp [located]
  | cons piece parts ih =>
    obtain ⟨hlater, hpairwise⟩ := ih (place.after piece.text)
    refine ⟨List.forall_mem_cons.mpr ⟨Nat.le_refl _, fun entry hentry => ?_⟩,
      List.pairwise_cons.mpr ⟨hlater, hpairwise⟩⟩
    exact Nat.le_trans (place.offset_le_after piece.text) (hlater entry hentry)

/-- A span begins with a word that its part begins with. -/
theorem beginsWith_covering (isMember : Char → Bool) (before word more after : List Char)
    (hends : ∀ c ∈ (more ++ after).head?, isMember c = false) :
    (Span.covering (Place.after {} before) (word ++ more)).BeginsWith word isMember
      (before ++ (word ++ more ++ after)) := by
  obtain ⟨hstart, hstop⟩ := bytes_covering before (word ++ more)
  constructor
  · rw [hstart, hstop, between_append]
    exact List.prefix_append word more
  · rw [hstart, splitAtByte_append, List.append_assoc, List.drop_left]
    exact hends

/-- The place where a reading fails has a sound span. -/
theorem isSound_syntaxComplaint (p : Pattern Part) (text source : String) :
    (syntaxComplaint p text.toList source).span.IsSound text :=
  StandsAt.isSound
    ⟨_, text.toList.drop (p.attempts text.toList).position, (List.take_append_drop _ _).symm, rfl⟩

section

variable {name : Part} {p : Pattern Part} {text source : String}

/-- What a text is read as stands at its start. -/
theorem standsAt_of_readBranch {parts : List (Piece Part)}
    (h : readBranch (.branch name p) text.toList source = .ok parts) :
    StandsAt text.toList {} (Piece.textOf parts) := by
  obtain ⟨rest, hread⟩ := (readBranch_eq_ok_iff _ _ _ _ _).mp h
  exact .of_read hread

/-- The complaint about a text that is no branch has a sound span. -/
theorem isSound_of_readBranch {complaint : Complaint}
    (h : readBranch (.branch name p) text.toList source = .error complaint) :
    complaint.span.IsSound text := by
  obtain ⟨-, rfl⟩ := (readBranch_eq_error_iff _ _ _ _ _).mp h
  exact isSound_syntaxComplaint _ text source

end

end UnitSystems
