import UnitSystems.Proofs.Files.Location

/-!
# Spellings of one path

Two paths can differ as they are written and lead to one location. Below one directory this takes a
dot or two, or a path that starts at the root: relative paths without dots lead to one location
only when they have the same components.
-/

namespace UnitSystems

/-- Pieces of a path that starts below a directory: those of the directory before its own. -/
theorem Path.exists_pieces_join (directory : String) (hdirectory : directory ≠ "") :
    ∃ start, start ≠ [] ∧ ∀ path, isAbsolute path = false →
      Text.pieces '/' (join directory path) = start ++ Text.pieces '/' path := by
  by_cases hslash : directory.toList.getLast? = some '/'
  · obtain ⟨front, hfront⟩ := List.getLast?_eq_some_iff.mp hslash
    refine ⟨(Text.split '/' front).map String.ofList, ?_, fun path hpath => ?_⟩
    · simpa using Text.split_ne_nil '/' front
    · have hjoin : join directory path = directory ++ path := by
        simp [join, hpath, hdirectory, hslash]
      rw [hjoin, Text.pieces, String.toList_append, hfront, List.append_assoc,
        List.singleton_append, Text.split_append, List.map_append]
      rfl
  · refine ⟨Text.pieces '/' directory, ?_, fun path hpath => ?_⟩
    · exact Text.pieces_ne_nil '/' directory
    · have hjoin : join directory path = directory ++ "/" ++ path := by
        simp [join, hpath, hdirectory, hslash]
      rw [hjoin]
      exact Text.pieces_append '/' directory path

/-- A path that starts below a directory is absolute when the directory is. -/
theorem Path.isAbsolute_join (directory path : String) (hdirectory : directory ≠ "")
    (hpath : isAbsolute path = false) :
    isAbsolute (join directory path) = isAbsolute directory := by
  obtain ⟨c, chars, hchars⟩ :=
    List.exists_cons_of_ne_nil (mt String.toList_eq_nil_iff.mp hdirectory)
  rw [join, if_neg (by simp [hpath, hdirectory])]
  split <;> simp [isAbsolute, hchars]

namespace Tree

/-- Relative paths that hold neither a dot nor two dots as a name. -/
def IsPlain (path : String) : Prop :=
  Path.isAbsolute path = false ∧ ∀ name ∈ steps path, name ≠ "." ∧ name ≠ ".."

instance (path : String) : Decidable (IsPlain path) :=
  inferInstanceAs (Decidable (_ ∧ _))

/-- In a plain path every name counts as a component. -/
theorem IsPlain.filter_counts {path : String} (h : IsPlain path) :
    (Text.pieces '/' path).filter Path.counts = steps path := by
  refine List.filter_congr fun piece hpiece => ?_
  by_cases hempty : piece = ""
  · rw [hempty]
    rfl
  · have hdot := (h.2 piece (List.mem_filter.mpr ⟨hpiece, by simpa using hempty⟩)).1
    simp [Path.counts, hempty, hdot]

/-- Names without dots lead into one directory after the other. -/
theorem foldl_next (location : Location) (names : List String)
    (h : ∀ name ∈ names, name ≠ "." ∧ name ≠ "..") :
    names.foldl next location = location ++ names := by
  induction names generalizing location with
  | nil => exact (List.append_nil location).symm
  | cons name names ih =>
    rw [List.forall_mem_cons] at h
    rw [List.foldl_cons, next_name location name h.1.1 h.1.2, ih _ h.2, List.append_assoc,
      List.singleton_append]

/-- The first piece of a relative path is no empty one, unless the path is empty. -/
theorem exists_pieces_of_relative (path : String) (h : Path.isAbsolute path = false)
    (hpath : path ≠ "") : ∃ first rest, Text.pieces '/' path = first :: rest ∧ first ≠ "" := by
  obtain ⟨c, chars, hchars⟩ :=
    List.exists_cons_of_ne_nil (mt String.toList_eq_nil_iff.mp hpath)
  have hc : c ≠ '/' := by simpa [Path.isAbsolute, hchars] using h
  obtain ⟨piece, others, hsplit⟩ := List.exists_cons_of_ne_nil (Text.split_ne_nil '/' chars)
  rw [Text.pieces, hchars, Text.split, if_neg hc, hsplit]
  exact ⟨_, _, rfl, by simp⟩

/-- The components of a path, the first piece of which is no empty one. -/
theorem components_of_pieces (path first : String) (rest : List String)
    (h : Text.pieces '/' path = first :: rest) (hfirst : first ≠ "") :
    Path.components path = first :: rest.filter Path.counts := by
  rw [Path.components, h]
  exact if_pos hfirst

/-- The components of a path from the root. -/
theorem components_of_root (path : String) (rest : List String) (hrest : rest ≠ [])
    (h : Text.pieces '/' path = "" :: rest) :
    Path.components path = "/" :: rest.filter Path.counts := by
  rw [Path.components, h]
  simp [hrest]

/-- A plain path has its names as components. -/
theorem IsPlain.components {path : String} (h : IsPlain path) :
    Path.components path = steps path := by
  by_cases hpath : path = ""
  · rw [hpath]
    rfl
  · obtain ⟨first, rest, hpieces, hfirst⟩ := exists_pieces_of_relative path h.1 hpath
    have hmem : first ∈ steps path := by simp [steps, hpieces, hfirst]
    have hcounts : Path.counts first = true := by simp [Path.counts, hfirst, (h.2 first hmem).1]
    rw [components_of_pieces path first rest hpieces hfirst, ← h.filter_counts, hpieces,
      List.filter_cons_of_pos hcounts]

/-- A plain path below a directory has the components of the directory before its own. -/
theorem exists_components_join (directory : String) : ∃ start, ∀ path, IsPlain path →
    Path.components (Path.join directory path) = start ++ steps path := by
  by_cases hdirectory : directory = ""
  · refine ⟨[], fun path hpath => ?_⟩
    have hjoin : Path.join directory path = path := by simp [Path.join, hdirectory]
    rw [hjoin, List.nil_append, hpath.components]
  · obtain ⟨start, hstart, hpieces⟩ := Path.exists_pieces_join directory hdirectory
    obtain ⟨first, rest, rfl⟩ := List.exists_cons_of_ne_nil hstart
    refine ⟨(if first = "" then "/" else first) :: rest.filter Path.counts, fun path hpath => ?_⟩
    have hjoined := hpieces path hpath.1
    rw [List.cons_append] at hjoined
    rw [List.cons_append, ← hpath.filter_counts, ← List.filter_append]
    by_cases hfirst : first = ""
    · have hrest : rest ++ Text.pieces '/' path ≠ [] :=
        List.append_ne_nil_of_right_ne_nil rest (Text.pieces_ne_nil '/' path)
      rw [if_pos hfirst, components_of_root _ _ hrest (hfirst ▸ hjoined)]
    · rw [if_neg hfirst, components_of_pieces _ first _ hjoined hfirst]

/-- A path below a directory has the names of the directory before its own. -/
theorem steps_join (directory path : String) (hdirectory : directory ≠ "")
    (hpath : Path.isAbsolute path = false) :
    steps (Path.join directory path) = steps directory ++ steps path := by
  by_cases hslash : directory.toList.getLast? = some '/'
  · obtain ⟨front, hfront⟩ := List.getLast?_eq_some_iff.mp hslash
    have hsplit : directory = String.ofList front ++ String.singleton '/' ++ "" := by
      apply String.toList_injective
      simp [hfront]
    have hjoin : Path.join directory path =
        String.ofList front ++ String.singleton '/' ++ path := by
      apply String.toList_injective
      simp [Path.join, hpath, hdirectory, hfront]
    have hempty : (Text.pieces '/' "").filter (· != "") = [] := rfl
    rw [steps, steps, steps, hjoin, Text.pieces_append, hsplit, Text.pieces_append,
      List.filter_append, List.filter_append, hempty, List.append_nil]
  · have hjoin : Path.join directory path = directory ++ "/" ++ path := by
      simp [Path.join, hpath, hdirectory, hslash]
    rw [steps, hjoin, steps, steps, ← List.filter_append]
    exact congrArg (List.filter (· != "")) (Text.pieces_append '/' directory path)

/-- A path below a directory leads on from where the directory is. -/
theorem destination_join (t : Tree) (directory path : String) (hdirectory : directory ≠ "")
    (hpath : Path.isAbsolute path = false) :
    t.destination (Path.join directory path) =
      (steps path).foldl next (t.destination directory) := by
  have horigin : t.origin (Path.join directory path) = t.origin directory := by
    rw [origin, origin, Path.isAbsolute_join directory path hdirectory hpath]
  rw [destination, horigin, steps_join directory path hdirectory hpath, List.foldl_append,
    destination]

/-- A plain path below a directory leads to its names below one location. -/
theorem exists_destination_join (t : Tree) (directory : String) : ∃ start, ∀ path, IsPlain path →
    t.destination (Path.join directory path) = start ++ steps path := by
  by_cases hdirectory : directory = ""
  · refine ⟨t.workingDirectory, fun path hpath => ?_⟩
    have hjoin : Path.join directory path = path := by simp [Path.join, hdirectory]
    have horigin : t.origin path = t.workingDirectory := by simp [origin, hpath.1]
    rw [hjoin, destination, horigin, foldl_next _ _ hpath.2]
  · refine ⟨t.destination directory, fun path hpath => ?_⟩
    rw [t.destination_join directory path hdirectory hpath.1, foldl_next _ _ hpath.2]

/-- Plain paths below one directory lead to one location only when they have the same
components. -/
theorem components_join_of_destination_eq (t : Tree) (directory path other : String)
    (hpath : IsPlain path) (hother : IsPlain other)
    (h : t.destination (Path.join directory path) = t.destination (Path.join directory other)) :
    Path.components (Path.join directory path) = Path.components (Path.join directory other) := by
  obtain ⟨start, hstart⟩ := t.exists_destination_join directory
  obtain ⟨front, hfront⟩ := exists_components_join directory
  rw [hstart path hpath, hstart other hother] at h
  rw [hfront path hpath, hfront other hother, List.append_cancel_left h]

end Tree

end UnitSystems
