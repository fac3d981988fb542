import Mathlib.Data.List.Nodup
import UnitSystems.Proofs.Files.Spelling

/-!
# Walks

A walk from a directory visits everything at and below it, each once, a directory before what it
holds and the names of one directory in ascending order. The extension of what is visited depends
on its last name alone.
-/

namespace UnitSystems

namespace Location

/-- The order of a walk: a location comes before everything below it, and before everything at and
below a larger name in the directory where the two part. -/
def Precedes (first second : Location) : Prop :=
  (∃ name rest, second = first ++ name :: rest) ∨
    ∃ common small large more others, first = common ++ small :: more ∧
      second = common ++ large :: others ∧ small < large

/-- Of two locations in one order, the first names decide unless they are the same. -/
theorem precedes_cons_iff (a b : String) (as bs : Location) :
    Precedes (a :: as) (b :: bs) ↔ a < b ∨ a = b ∧ Precedes as bs := by
  constructor
  · rintro (⟨name, rest, h⟩ | ⟨common, small, large, more, others, hfirst, hsecond, hlt⟩)
    · obtain ⟨rfl, hrest⟩ := List.cons.inj h
      exact .inr ⟨rfl, .inl ⟨name, rest, hrest⟩⟩
    · cases common with
      | nil =>
        obtain ⟨rfl, -⟩ := List.cons.inj hfirst
        obtain ⟨rfl, -⟩ := List.cons.inj hsecond
        exact .inl hlt
      | cons name common =>
        obtain ⟨rfl, has⟩ := List.cons.inj hfirst
        obtain ⟨rfl, hbs⟩ := List.cons.inj hsecond
        exact .inr ⟨rfl, .inr ⟨common, small, large, more, others, has, hbs, hlt⟩⟩
  · rintro (hlt | ⟨rfl, ⟨name, rest, rfl⟩ | ⟨common, small, large, more, others, rfl, rfl, hlt⟩⟩)
    · exact .inr ⟨[], a, b, as, bs, rfl, rfl, hlt⟩
    · exact .inl ⟨name, rest, rfl⟩
    · exact .inr ⟨a :: common, small, large, more, others, rfl, rfl, hlt⟩

/-- A location that is not after another one is the same or comes before it. -/
theorem eq_or_precedes_of_notAfter (first second : Location) (h : notAfter first second = true) :
    first = second ∨ Precedes first second := by
  induction first generalizing second with
  | nil =>
    cases second with
    | nil => exact .inl rfl
    | cons name rest => exact .inr (.inl ⟨name, rest, rfl⟩)
  | cons a as ih =>
    cases second with
    | nil => contradiction
    | cons b bs =>
      rw [precedes_cons_iff]
      rw [notAfter] at h
      split at h
      · next heq =>
        subst heq
        rcases ih bs h with rfl | hrest
        · exact .inl rfl
        · exact .inr (.inr ⟨rfl, hrest⟩)
      · exact .inr (.inl (of_decide_eq_true h))

/-- Where the first names differ, the smaller one decides. -/
theorem notAfter_cons_iff (a b : String) (as bs : Location) :
    notAfter (a :: as) (b :: bs) = true ↔ a < b ∨ a = b ∧ notAfter as bs = true := by
  rw [notAfter]
  split
  · next heq =>
    subst heq
    simp
  · next hne => simp [hne]

/-- The order of a walk is transitive. -/
theorem notAfter_trans (first second third : Location) (h : notAfter first second = true)
    (hthird : notAfter second third = true) : notAfter first third = true := by
  induction first generalizing second third with
  | nil => rfl
  | cons a as ih =>
    cases second with
    | nil => contradiction
    | cons b bs =>
      cases third with
      | nil => contradiction
      | cons c cs =>
        rw [notAfter_cons_iff] at h hthird ⊢
        rcases h with hlt | ⟨rfl, hrest⟩
        · rcases hthird with hafter | ⟨rfl, -⟩
          · exact .inl (String.lt_trans hlt hafter)
          · exact .inl hlt
        · rcases hthird with hafter | ⟨rfl, hafter⟩
          · exact .inl hafter
          · exact .inr ⟨rfl, ih bs cs hrest hafter⟩

/-- Of two locations one is not after the other. -/
theorem notAfter_total (first second : Location) :
    (notAfter first second || notAfter second first) = true := by
  rw [Bool.or_eq_true]
  induction first generalizing second with
  | nil => exact .inl rfl
  | cons a as ih =>
    cases second with
    | nil => exact .inr rfl
    | cons b bs =>
      rw [notAfter_cons_iff, notAfter_cons_iff]
      by_cases hlt : a < b
      · exact .inl (.inl hlt)
      · by_cases hgt : b < a
        · exact .inr (.inl hgt)
        · obtain rfl : a = b := String.le_antisymm (String.not_lt.mp hgt) (String.not_lt.mp hlt)
          rcases ih bs with hrest | hrest
          · exact .inl (.inr ⟨rfl, hrest⟩)
          · exact .inr (.inr ⟨rfl, hrest⟩)

end Location

namespace Tree

/-- Names that can stand in a directory. -/
def IsName (name : String) : Prop :=
  name ≠ "" ∧ '/' ∉ name.toList ∧ name ≠ "." ∧ name ≠ ".."

instance (name : String) : Decidable (IsName name) :=
  inferInstanceAs (Decidable (_ ∧ _))

/-- Trees with one entry at a location, and with names that can stand in a directory. -/
structure IsWellFormed (t : Tree) : Prop where
  nodup : (t.entries.map Prod.fst).Nodup
  names : ∀ entry ∈ t.entries, ∀ name ∈ entry.1, IsName name

/-- Something stands at a location exactly when an entry has it. -/
theorem entry_ne_none_iff (t : Tree) (location : Location) (h : location ≠ []) :
    t.entry? location ≠ none ↔ location ∈ t.entries.map Prod.fst := by
  unfold entry?
  rw [if_neg h, ne_eq, List.lookup_eq_none_iff, List.mem_map]
  constructor
  · intro hsome
    apply Decidable.byContradiction
    intro hnone
    apply hsome
    intro entry hentry
    simp only [bne_iff_ne, ne_eq]
    rintro rfl
    exact hnone ⟨entry, hentry, rfl⟩
  · rintro ⟨entry, hentry, rfl⟩ hnone
    simpa using hnone entry hentry

/-- What holds of the root and of every entry holds of whatever stands in the tree. -/
theorem forall_entry (t : Tree) (p : Location → Entry → Prop) (hroot : p [] .directory)
    (h : ∀ entry ∈ t.entries, p entry.1 entry.2) (location : Location) (entry : Entry)
    (hentry : t.entry? location = some entry) : p location entry := by
  unfold entry? at hentry
  split at hentry
  · next hnil =>
    obtain rfl := Option.some.inj hentry
    exact hnil ▸ hroot
  · obtain ⟨before, after, hentries, -⟩ := List.lookup_eq_some_iff.mp hentry
    exact h (location, entry) (by simp [hentries])

/-- The names that lead to something can stand in a directory. -/
theorem IsWellFormed.isName {t : Tree} (h : t.IsWellFormed) (location : Location)
    (hentry : t.entry? location ≠ none) : ∀ name ∈ location, IsName name := by
  by_cases hnil : location = []
  · rw [hnil]
    exact List.forall_mem_nil _
  · obtain ⟨entry, hmem, rfl⟩ :=
      List.mem_map.mp ((t.entry_ne_none_iff location hnil).mp hentry)
    exact h.names entry hmem

/-- The part of a location that is below another one. -/
def relative? (location place : Location) : Option Location :=
  match location.isPrefixOf? place with
  | some (name :: rest) => some (name :: rest)
  | _ => none

/-- A location is below another one by the names that lead there. -/
theorem relative?_eq_some_iff (location place names : Location) :
    relative? location place = some names ↔ names ≠ [] ∧ place = location ++ names := by
  unfold relative?
  constructor
  · intro h
    split at h
    · next name rest hprefix =>
      obtain rfl := Option.some.inj h
      exact ⟨List.cons_ne_nil name rest, (List.isPrefixOf?_eq_some_iff_append_eq.mp hprefix).symm⟩
    · contradiction
  · rintro ⟨hne, rfl⟩
    obtain ⟨name, rest, rfl⟩ := List.exists_cons_of_ne_nil hne
    rw [List.isPrefixOf?_eq_some_iff_append_eq.mpr rfl]

/-- The locations below another one, in order. -/
theorem below_eq (t : Tree) (location : Location) : t.below location =
    ((t.entries.map Prod.fst).filterMap (relative? location)).mergeSort Location.notAfter := by
  rw [List.filterMap_map]
  rfl

/-- Everything below a location is visited. -/
theorem mem_below_iff (t : Tree) (location names : Location) :
    names ∈ t.below location ↔ names ≠ [] ∧ t.entry? (location ++ names) ≠ none := by
  rw [below_eq, List.mem_mergeSort, List.mem_filterMap]
  constructor
  · rintro ⟨place, hplace, hrelative⟩
    obtain ⟨hne, rfl⟩ := (relative?_eq_some_iff location place names).mp hrelative
    exact ⟨hne, (t.entry_ne_none_iff _ (List.append_ne_nil_of_right_ne_nil _ hne)).mpr hplace⟩
  · rintro ⟨hne, hentry⟩
    refine ⟨location ++ names, ?_, (relative?_eq_some_iff _ _ _).mpr ⟨hne, rfl⟩⟩
    exact (t.entry_ne_none_iff _ (List.append_ne_nil_of_right_ne_nil _ hne)).mp hentry

/-- What is below a location is visited in order, each once. -/
theorem pairwise_below (t : Tree) (h : (t.entries.map Prod.fst).Nodup) (location : Location) :
    (t.below location).Pairwise Location.Precedes := by
  rw [below_eq]
  have hsorted := List.pairwise_mergeSort Location.notAfter_trans Location.notAfter_total
    ((t.entries.map Prod.fst).filterMap (relative? location))
  have hnodup : ((t.entries.map Prod.fst).filterMap (relative? location)).Nodup := by
    apply h.filterMap
    intro first second names hfirst hsecond
    rw [((relative?_eq_some_iff _ _ _).mp hfirst).2, ((relative?_eq_some_iff _ _ _).mp hsecond).2]
  refine (hsorted.and (List.nodup_mergeSort.mpr hnodup)).imp ?_
  rintro first second ⟨hle, hne⟩
  rcases Location.eq_or_precedes_of_notAfter first second hle with heq | hprecedes
  · exact absurd heq hne
  · exact hprecedes

/-- The path of what names lead to below a directory. -/
def pathBelow (directory : String) (names : Location) : String :=
  names.foldl Path.join directory

/-- Locations below one that a walk visits in this order: everything that stands there. -/
structure AreVisited (t : Tree) (location : Location) (places : List Location) : Prop where
  ordered : places.Pairwise Location.Precedes
  mem_iff : ∀ names, names ∈ places ↔ t.entry? (location ++ names) ≠ none

/-- A walk from a directory visits the directory and everything below it, in order. -/
theorem walk_of_find (t : Tree) (h : (t.entries.map Prod.fst).Nodup) (directory : String)
    (location : Location) (hfind : t.find directory = .ok (location, .directory)) :
    ∃ places, t.AreVisited location places ∧
      t.walk directory = places.map fun names => .entry (pathBelow directory names) := by
  refine ⟨[] :: t.below location, ⟨?_, ?_⟩, ?_⟩
  · refine List.pairwise_cons.mpr ⟨?_, t.pairwise_below h location⟩
    intro names hnames
    obtain ⟨name, rest, rfl⟩ :=
      List.exists_cons_of_ne_nil ((t.mem_below_iff location names).mp hnames).1
    exact .inl ⟨name, rest, rfl⟩
  · intro names
    rw [List.mem_cons, mem_below_iff]
    by_cases hnil : names = []
    · have hentry := ((t.find_eq_directory_iff directory location).mp hfind).2.2
      simp [hnil, hentry]
    · simp [hnil]
  · rw [walk, hfind]
    rfl

/-- A name is the only step of the path that it makes. -/
theorem steps_of_isName (name : String) (h : IsName name) : steps name = [name] := by
  rw [steps, Text.pieces_of_notMem '/' name h.2.1]
  simp [h.1]

/-- A name is a plain path. -/
theorem isPlain_of_isName (name : String) (h : IsName name) : IsPlain name := by
  constructor
  · obtain ⟨c, chars, hchars⟩ := List.exists_cons_of_ne_nil (mt String.toList_eq_nil_iff.mp h.1)
    have hc : '/' ≠ c := by
      rintro rfl
      exact h.2.1 (hchars ▸ List.mem_cons_self)
    simp [Path.isAbsolute, hchars, Ne.symm hc]
  · rw [steps_of_isName name h, List.forall_mem_singleton]
    exact h.2.2

/-- Names lead below where the directory is. -/
theorem destination_pathBelow (t : Tree) (directory : String) (hdirectory : directory ≠ "")
    (names : Location) (h : ∀ name ∈ names, IsName name) :
    t.destination (pathBelow directory names) = t.destination directory ++ names := by
  induction names generalizing directory with
  | nil => exact (List.append_nil _).symm
  | cons name names ih =>
    obtain ⟨hname, hnames⟩ := List.forall_mem_cons.mp h
    have hplain := isPlain_of_isName name hname
    have hjoined : t.destination (Path.join directory name) = t.destination directory ++ [name] := by
      rw [t.destination_join directory name hdirectory hplain.1, foldl_next _ _ hplain.2,
        steps_of_isName name hname]
    have hne : Path.join directory name ≠ "" := by
      intro hempty
      have hsteps := steps_join directory name hdirectory hplain.1
      rw [hempty, steps_of_isName name hname] at hsteps
      simp [steps, Text.pieces, Text.split] at hsteps
    rw [pathBelow, List.foldl_cons, ← pathBelow, ih _ hne hnames, hjoined, List.append_assoc,
      List.singleton_append]

/-- Names lead below the location that a path of a directory leads to. -/
theorem destination_pathBelow_of_find (t : Tree) (directory : String) (location : Location)
    (hfind : t.find directory = .ok (location, .directory)) (names : Location)
    (h : ∀ name ∈ names, IsName name) :
    t.destination (pathBelow directory names) = location ++ names := by
  have hne : directory ≠ "" := by
    rintro rfl
    have hcheck := ((t.find_eq_directory_iff "" location).mp hfind).1
    contradiction
  rw [t.destination_pathBelow directory hne names h, (t.of_find_eq_ok _ _ _ hfind).1]

/-- What a path leads to has the last name of the path. -/
theorem fileName?_of_components (path : String) (start : List String) (name : String)
    (hname : IsName name) (h : Path.components path = start ++ [name]) :
    Path.fileName? path = some name := by
  have hslash : name ≠ "/" := by
    rintro rfl
    exact hname.2.1 (by decide)
  rw [Path.fileName?, h, List.getLast?_concat]
  simp [hslash, hname.2.2.1, hname.2.2.2]

/-- The extension of a path below a directory is the one of its name. -/
theorem extension?_join (directory name : String) (hname : IsName name) :
    Path.extension? (Path.join directory name) = Path.extension? name := by
  have hplain := isPlain_of_isName name hname
  have hsteps := steps_of_isName name hname
  obtain ⟨start, hstart⟩ := exists_components_join directory
  have hjoined := hstart name hplain
  have halone := hplain.components
  rw [hsteps] at hjoined halone
  rw [Path.extension?, Path.extension?, fileName?_of_components _ start name hname hjoined,
    fileName?_of_components name [] name hname halone]

/-- The last of the names that lead below a directory, or the directory itself. -/
def lastName (directory : String) (names : Location) : String :=
  names.getLast?.getD directory

/-- The extension of what names lead to below a directory is the one of the last of them. -/
theorem extension?_pathBelow (directory : String) (names : Location)
    (h : ∀ name ∈ names, IsName name) :
    Path.extension? (pathBelow directory names) = Path.extension? (lastName directory names) := by
  rcases List.eq_nil_or_concat names with rfl | ⟨above, name, rfl⟩
  · rfl
  · rw [List.concat_eq_append] at h ⊢
    have hname : IsName name := h name (by simp)
    rw [pathBelow, List.foldl_append, lastName, List.getLast?_concat]
    exact extension?_join _ name hname

end Tree

end UnitSystems
