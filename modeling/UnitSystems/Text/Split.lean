/-!
# Pieces between separators

A text is split at every separator. There is one piece more than there are separators, and none of
them holds a separator.
-/

namespace UnitSystems.Text

/-- The pieces of a text between the separators. -/
def split (separator : Char) : List Char → List (List Char)
  | [] => [[]]
  | c :: rest =>
    if c = separator then [] :: split separator rest
    else
      match split separator rest with
      | [] => [[c]]
      | piece :: others => (c :: piece) :: others

/-- There is always a piece. -/
theorem split_ne_nil (separator : Char) (text : List Char) : split separator text ≠ [] := by
  cases text with
  | nil => simp [split]
  | cons c rest =>
    unfold split
    split
    · simp
    · split <;> simp

/-- A text with a separator in it is split on both sides of it. -/
theorem split_append (separator : Char) (first second : List Char) :
    split separator (first ++ separator :: second) =
      split separator first ++ split separator second := by
  induction first with
  | nil => simp [split]
  | cons c first ih =>
    rw [List.cons_append, split, split, ih]
    by_cases hc : c = separator
    · simp [hc]
    · rw [if_neg hc, if_neg hc]
      obtain ⟨piece, others, hfirst⟩ :=
        List.exists_cons_of_ne_nil (split_ne_nil separator first)
      rw [hfirst]
      rfl

/-- What stands before every separator stands at the front of the first piece. -/
theorem split_append_of_notMem (separator : Char) (first second : List Char)
    (h : separator ∉ first) : ∃ piece others, split separator second = piece :: others ∧
      split separator (first ++ second) = (first ++ piece) :: others := by
  induction first with
  | nil =>
    obtain ⟨piece, others, hsecond⟩ :=
      List.exists_cons_of_ne_nil (split_ne_nil separator second)
    exact ⟨piece, others, hsecond, hsecond⟩
  | cons c first ih =>
    rw [List.mem_cons, not_or] at h
    obtain ⟨piece, others, hsecond, hboth⟩ := ih h.2
    refine ⟨piece, others, hsecond, ?_⟩
    rw [List.cons_append, split, if_neg (Ne.symm h.1), hboth]
    rfl

/-- A text without a separator is its only piece. -/
theorem split_of_notMem (separator : Char) (text : List Char) (h : separator ∉ text) :
    split separator text = [text] := by
  obtain ⟨piece, others, hnil, htext⟩ := split_append_of_notMem separator text [] h
  obtain ⟨rfl, rfl⟩ := List.cons.inj hnil
  rwa [List.append_nil] at htext

/-- No piece holds a separator. -/
theorem notMem_of_mem_split (separator : Char) (text : List Char) :
    ∀ piece ∈ split separator text, separator ∉ piece := by
  induction text with
  | nil => simp [split]
  | cons c rest ih =>
    by_cases hc : c = separator
    · rw [split, if_pos hc, List.forall_mem_cons]
      exact ⟨List.not_mem_nil, ih⟩
    · obtain ⟨piece, others, hrest, hsplit⟩ :=
        split_append_of_notMem separator [c] rest (by simpa using Ne.symm hc)
      rw [List.singleton_append] at hsplit
      rw [hrest, List.forall_mem_cons] at ih
      rw [hsplit, List.forall_mem_cons]
      refine ⟨?_, ih.2⟩
      simpa [Ne.symm hc] using ih.1

/-- There is one piece more than there are separators. -/
theorem length_split (separator : Char) (text : List Char) :
    (split separator text).length = text.count separator + 1 := by
  induction text with
  | nil => rfl
  | cons c rest ih =>
    by_cases hc : c = separator
    · subst hc
      rw [split, if_pos rfl, List.length_cons, ih, List.count_cons_self]
    · obtain ⟨piece, others, hrest, hsplit⟩ :=
        split_append_of_notMem separator [c] rest (by simpa using Ne.symm hc)
      rw [List.singleton_append] at hsplit
      rw [hsplit, List.count_cons_of_ne hc, ← ih, hrest, List.length_cons, List.length_cons]

/-- The pieces of a string between the separators. -/
def pieces (separator : Char) (text : String) : List String :=
  (split separator text.toList).map String.ofList

/-- There is always a piece of a string. -/
theorem pieces_ne_nil (separator : Char) (text : String) : pieces separator text ≠ [] := by
  simpa [pieces] using split_ne_nil separator text.toList

/-- A string without a separator is its only piece. -/
theorem pieces_of_notMem (separator : Char) (text : String) (h : separator ∉ text.toList) :
    pieces separator text = [text] := by
  rw [pieces, split_of_notMem separator text.toList h, List.map_singleton, String.ofList_toList]

/-- No piece of a string holds a separator. -/
theorem notMem_of_mem_pieces (separator : Char) (text : String) :
    ∀ piece ∈ pieces separator text, separator ∉ piece.toList := by
  rw [pieces, List.forall_mem_map]
  intro piece hpiece
  rw [String.toList_ofList]
  exact notMem_of_mem_split separator text.toList piece hpiece

/-- A string with a separator in it has the pieces on both sides of it. -/
theorem pieces_append (separator : Char) (first second : String) :
    pieces separator (first ++ String.singleton separator ++ second) =
      pieces separator first ++ pieces separator second := by
  simp only [pieces, String.toList_append, String.toList_singleton, List.append_assoc,
    List.singleton_append, split_append, List.map_append]

end UnitSystems.Text
