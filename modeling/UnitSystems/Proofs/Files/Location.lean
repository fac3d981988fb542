import UnitSystems.Files.Tree

/-!
# Where paths lead

The location that a path leads to depends on its spelling and on the working directory alone: the
tree decides whether the path leads anywhere, not where. A path that leads to a file goes on doing
so while every directory stays and the working directory does not change.
-/

namespace UnitSystems.Tree

/-- The location that one more name leads to from a directory. -/
def next (location : Location) (name : String) : Location :=
  if name = "." then location else if name = ".." then location.dropLast else location ++ [name]

/-- The location that a path leads to if it leads anywhere. -/
def destination (t : Tree) (path : String) : Location :=
  (steps path).foldl next (t.origin path)

/-- Trees with the same working directory agree on where a path leads. -/
theorem destination_congr (t other : Tree) (h : other.workingDirectory = t.workingDirectory)
    (path : String) : other.destination path = t.destination path := by
  simp only [destination, origin, h]

/-- A name that is no dot leads into the directory. -/
theorem next_name (location : Location) (name : String) (hdot : name ≠ ".") (hdots : name ≠ "..") :
    next location name = location ++ [name] := by
  rw [next, if_neg hdot, if_neg hdots]

/-- A step leads from a directory to the next location. -/
theorem of_step_eq_ok (t : Tree) (location last : Location) (name : String)
    (h : t.step location name = .ok last) :
    t.entry? location = some .directory ∧ last = next location name := by
  unfold step at h
  split at h
  case h_1 hdirectory =>
    refine ⟨hdirectory, ?_⟩
    unfold next
    split at h
    · next hdot => rw [if_pos hdot, Except.ok.inj h]
    · next hdot =>
      rw [if_neg hdot]
      split at h
      · next hdots => rw [if_pos hdots, Except.ok.inj h]
      · next hdots =>
        rw [if_neg hdots]
        split at h
        · contradiction
        · exact (Except.ok.inj h).symm
  case h_2 => contradiction
  case h_3 => contradiction

/-- A step depends on whether there is a directory to step from. -/
theorem step_congr (t other : Tree) (location : Location) (name : String)
    (h : t.entry? location = some .directory) (hother : other.entry? location = some .directory) :
    other.step location name = t.step location name := by
  simp only [step, h, hother]

/-- Names are followed part by part. -/
theorem follow_append (t : Tree) (location : Location) (first second : List String) :
    t.follow location (first ++ second) =
      match t.follow location first with
      | .ok middle => t.follow middle second
      | .error error => .error error := by
  induction first generalizing location with
  | nil => rfl
  | cons name first ih =>
    simp only [List.cons_append, follow]
    cases t.step location name with
    | ok middle => exact ih middle
    | error error => rfl

/-- Names that lead to a directory lead one name further. -/
theorem follow_concat (t : Tree) (start location : Location) (names : List String) (name : String)
    (hdot : name ≠ ".") (hdots : name ≠ "..") (hlength : name.utf8ByteSize ≤ longestName)
    (hdirectory : t.entry? location = some .directory)
    (hfollow : t.follow start names = .ok location) :
    t.follow start (names ++ [name]) = .ok (location ++ [name]) := by
  rw [follow_append]
  simp only [hfollow, follow, step, hdirectory, if_neg hdot, if_neg hdots,
    if_neg (Nat.not_lt.mpr hlength)]

/-- Names that can be followed lead where their spelling says. -/
theorem eq_foldl_of_follow (t : Tree) (location last : Location) (names : List String)
    (h : t.follow location names = .ok last) : last = names.foldl next location := by
  induction names generalizing location with
  | nil => exact (Except.ok.inj h).symm
  | cons name names ih =>
    unfold follow at h
    split at h
    · next middle hstep =>
      rw [List.foldl_cons, ← (of_step_eq_ok t location middle name hstep).2]
      exact ih middle h
    · contradiction

/-- Every directory of a tree is one of the other, with the same working directory. -/
structure KeepsDirectories (t other : Tree) : Prop where
  workingDirectory : other.workingDirectory = t.workingDirectory
  directories : ∀ location, t.entry? location = some .directory →
    other.entry? location = some .directory

/-- Names that can be followed still can when every directory stays. -/
theorem KeepsDirectories.follow {t other : Tree} (h : t.KeepsDirectories other)
    (location last : Location) (names : List String) (hnames : t.follow location names = .ok last) :
    other.follow location names = .ok last := by
  induction names generalizing location with
  | nil => exact hnames
  | cons name names ih =>
    unfold Tree.follow at hnames ⊢
    split at hnames
    · next middle hstep =>
      have hdirectory := (of_step_eq_ok t location middle name hstep).1
      have hother := h.directories location hdirectory
      rw [step_congr t other location name hdirectory hother, hstep]
      exact ih middle hnames
    · contradiction

/-- What it takes for a path to lead to a file. -/
theorem find_eq_file_iff (t : Tree) (path : String) (location : Location) (content : Content) :
    t.find path = .ok (location, .file content) ↔
      checkPath path = .ok () ∧ endsInSlash path = false ∧
        t.follow (t.origin path) (steps path) = .ok location ∧
        t.entry? location = some (.file content) := by
  unfold find
  constructor
  · intro h
    split at h
    · contradiction
    next hcheck =>
    split at h
    · contradiction
    next found hfollow =>
    split at h
    · contradiction
    · cases h
    · next held hentry =>
      split at h
      · contradiction
      · next hslash =>
        simp only [Except.ok.injEq, Prod.mk.injEq, Entry.file.injEq] at h
        obtain ⟨rfl, rfl⟩ := h
        exact ⟨hcheck, by simpa using hslash, hfollow, hentry⟩
  · rintro ⟨hcheck, hslash, hfollow, hentry⟩
    simp [hcheck, hslash, hfollow, hentry]

/-- A path still leads to its location when every directory stays, and to the file that is there
now. -/
theorem KeepsDirectories.find {t other : Tree} (h : t.KeepsDirectories other) (path : String)
    (location : Location) (content now : Content)
    (hfile : t.find path = .ok (location, .file content))
    (hnow : other.entry? location = some (.file now)) :
    other.find path = .ok (location, .file now) := by
  obtain ⟨hcheck, hslash, hfollow, -⟩ := (t.find_eq_file_iff path location content).mp hfile
  have horigin : other.origin path = t.origin path := by simp only [origin, h.workingDirectory]
  refine (other.find_eq_file_iff path location now).mpr ⟨hcheck, hslash, ?_, hnow⟩
  rw [horigin]
  exact h.follow _ _ _ hfollow

/-- What it takes for a path to lead to a directory. -/
theorem find_eq_directory_iff (t : Tree) (path : String) (location : Location) :
    t.find path = .ok (location, .directory) ↔
      checkPath path = .ok () ∧ t.follow (t.origin path) (steps path) = .ok location ∧
        t.entry? location = some .directory := by
  unfold find
  constructor
  · intro h
    split at h
    · contradiction
    next hcheck =>
    split at h
    · contradiction
    next found hfollow =>
    split at h
    · contradiction
    · next hentry =>
      obtain ⟨rfl, -⟩ := Prod.mk.inj (Except.ok.inj h)
      exact ⟨hcheck, hfollow, hentry⟩
    · split at h <;> simp at h
  · rintro ⟨hcheck, hfollow, hentry⟩
    simp [hcheck, hfollow, hentry]

/-- What a path leads to stands where its spelling says. -/
theorem of_find_eq_ok (t : Tree) (path : String) (location : Location) (entry : Entry)
    (h : t.find path = .ok (location, entry)) :
    location = t.destination path ∧ t.entry? location = some entry := by
  cases entry with
  | directory =>
    obtain ⟨-, hfollow, hentry⟩ := (t.find_eq_directory_iff path location).mp h
    exact ⟨t.eq_foldl_of_follow _ _ _ hfollow, hentry⟩
  | file content =>
    obtain ⟨-, -, hfollow, hentry⟩ := (t.find_eq_file_iff path location content).mp h
    exact ⟨t.eq_foldl_of_follow _ _ _ hfollow, hentry⟩

/-- A directory cannot be read as a file. -/
theorem exists_readFile_error (t : Tree) (path : String)
    (h : t.entry? (t.destination path) = some .directory) :
    ∃ error, t.readFile path = .error error := by
  unfold readFile
  cases hfind : t.find path with
  | error error => exact ⟨error, rfl⟩
  | ok found =>
    obtain ⟨location, entry⟩ := found
    obtain ⟨rfl, hentry⟩ := t.of_find_eq_ok path location entry hfind
    obtain rfl := Option.some.inj (h.symm.trans hentry)
    exact ⟨.isDirectory, rfl⟩

/-- A path still leads to its directory when every directory stays. -/
theorem KeepsDirectories.find_directory {t other : Tree} (h : t.KeepsDirectories other)
    (path : String) (location : Location) (hfind : t.find path = .ok (location, .directory)) :
    other.find path = .ok (location, .directory) := by
  obtain ⟨hcheck, hfollow, hentry⟩ := (t.find_eq_directory_iff path location).mp hfind
  have horigin : other.origin path = t.origin path := by simp only [origin, h.workingDirectory]
  apply (other.find_eq_directory_iff path location).mpr
  refine ⟨hcheck, ?_, h.directories location hentry⟩
  rw [horigin]
  exact h.follow _ _ _ hfollow

/-- A path that leads to a file of text reads as this text. -/
theorem readFile_of_find (t : Tree) (path text : String) (location : Location)
    (h : t.find path = .ok (location, .file (.text text))) : t.readFile path = .ok text := by
  rw [readFile, h]

/-- Entries at one location do not matter at another. -/
theorem lookup_filter_ne (entries : List (Location × Entry)) (location other : Location)
    (h : other ≠ location) :
    (entries.filter (·.1 != location)).lookup other = entries.lookup other := by
  induction entries with
  | nil => rfl
  | cons first entries ih =>
    obtain ⟨place, entry⟩ := first
    by_cases hplace : place = location
    · subst hplace
      have hne : (other == place) = false := beq_eq_false_iff_ne.mpr h
      simp only [List.filter_cons, bne_self_eq_false, Bool.false_eq_true, ↓reduceIte,
        List.lookup_cons, hne, ih]
    · simp only [List.filter_cons, bne_iff_ne, ne_eq, hplace, not_false_eq_true, ↓reduceIte,
        List.lookup_cons, ih]

/-- What stands at each location after an entry was put. -/
theorem entry_put (t : Tree) (location : Location) (hlocation : location ≠ []) (entry : Entry)
    (other : Location) : entry? (t.put location entry) other =
      if other = location then some entry else t.entry? other := by
  unfold entry? put
  by_cases hother : other = location
  · rw [if_pos hother, hother, if_neg hlocation]
    simp
  · have hne : (other == location) = false := beq_eq_false_iff_ne.mpr hother
    simp only [List.lookup_cons, hne, if_neg hother, lookup_filter_ne _ location other hother]

end UnitSystems.Tree
