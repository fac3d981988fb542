import UnitSystems.Files.Access
import UnitSystems.Proofs.Files.Location

/-!
# Making directories

Making the directories above a file adds directories and changes nothing else. Every new directory
is one that a path leads to of which it was asked to be made.
-/

namespace UnitSystems

namespace Tree

/-- What stands at a location stays, or a directory is added where nothing stood. -/
def Adds (t other : Tree) (location : Location) : Prop :=
  other.entry? location = t.entry? location ∨
    t.entry? location = none ∧ other.entry? location = some .directory

/-- Directories are added in turn. -/
theorem Adds.trans {t middle last : Tree} {location : Location} (h : t.Adds middle location)
    (hlast : middle.Adds last location) : t.Adds last location := by
  rcases h with hsame | ⟨hnone, hadded⟩
  · unfold Adds at *
    rwa [← hsame]
  · rcases hlast with hsame | ⟨hmiddle, hdirectory⟩
    · exact .inr ⟨hnone, hsame.trans hadded⟩
    · exact .inr ⟨hnone, hdirectory⟩

/-- A directory stays. -/
theorem Adds.directory {t other : Tree} {location : Location} (h : t.Adds other location)
    (hbefore : t.entry? location = some .directory) : other.entry? location = some .directory := by
  rcases h with hsame | ⟨-, hdirectory⟩
  · exact hsame.trans hbefore
  · exact hdirectory

/-- A tree with more directories: whatever stood there stays, and what is new is a directory. -/
structure HasMoreDirectories (t other : Tree) : Prop where
  workingDirectory : other.workingDirectory = t.workingDirectory
  entries : ∀ location, t.Adds other location

/-- No directory is added. -/
theorem HasMoreDirectories.refl (t : Tree) : t.HasMoreDirectories t :=
  ⟨rfl, fun _ => .inl rfl⟩

/-- Directories are added in turn. -/
theorem HasMoreDirectories.trans {t middle last : Tree} (h : t.HasMoreDirectories middle)
    (hlast : middle.HasMoreDirectories last) : t.HasMoreDirectories last :=
  ⟨hlast.workingDirectory.trans h.workingDirectory,
    fun location => (h.entries location).trans (hlast.entries location)⟩

/-- Every directory stays when directories are added. -/
theorem HasMoreDirectories.keepsDirectories {t last : Tree} (h : t.HasMoreDirectories last) :
    t.KeepsDirectories last :=
  ⟨h.workingDirectory, fun location hdirectory => (h.entries location).directory hdirectory⟩

/-- A tree with more directories, to each of which one of some paths leads. -/
structure HasDirectoriesAt (t : Tree) (paths : List String) (last : Tree) : Prop extends
    t.HasMoreDirectories last where
  led : ∀ location, last.entry? location ≠ t.entry? location →
    ∃ path ∈ paths, last.find path = .ok (location, .directory)

/-- No directory is added. -/
theorem HasDirectoriesAt.refl (t : Tree) (paths : List String) : t.HasDirectoriesAt paths t :=
  ⟨.refl t, fun _ h => absurd rfl h⟩

/-- Directories at some paths are added in turn. -/
theorem HasDirectoriesAt.trans {t middle last : Tree} {paths : List String}
    (h : t.HasDirectoriesAt paths middle) (hlast : middle.HasDirectoriesAt paths last) :
    t.HasDirectoriesAt paths last := by
  refine ⟨h.toHasMoreDirectories.trans hlast.toHasMoreDirectories, ?_⟩
  intro location hnew
  by_cases hmiddle : last.entry? location = middle.entry? location
  · obtain ⟨path, hpath, hfind⟩ := h.led location (hmiddle ▸ hnew)
    exact ⟨path, hpath, hlast.keepsDirectories.find_directory path location hfind⟩
  · exact hlast.led location hmiddle

/-- What it takes for a path to have a place: the names before the last lead to a directory. -/
theorem of_place_eq_ok (t : Tree) (path name : String) (location : Location)
    (h : t.place path = .ok (location, some name)) :
    checkPath path = .ok () ∧ t.entry? location = some .directory ∧ name ≠ "." ∧ name ≠ ".." ∧
      ∃ names, steps path = names ++ [name] ∧ t.follow (t.origin path) names = .ok location := by
  unfold place at h
  split at h
  · contradiction
  next hcheck =>
  simp only at h
  split at h
  · contradiction
  next found hfollow =>
  split at h
  · contradiction
  · contradiction
  next hdirectory =>
  split at h
  · cases h
  next last hlast =>
  simp only [Except.ok.injEq, Prod.mk.injEq] at h
  obtain ⟨rfl, hname⟩ := h
  split at hname
  · contradiction
  next hdots =>
  obtain rfl := Option.some.inj hname
  obtain ⟨names, hsteps⟩ := List.getLast?_eq_some_iff.mp hlast
  refine ⟨hcheck, hdirectory, fun h => hdots (.inl h), fun h => hdots (.inr h), names, hsteps, ?_⟩
  rwa [hsteps, List.dropLast_concat] at hfollow

/-- A directory that was made is new, and its path leads to it. -/
theorem hasDirectoriesAt_makeDirectory (t last : Tree) (path : String) (paths : List String)
    (hpath : path ∈ paths) (h : t.makeDirectory path = .ok last) :
    t.HasDirectoriesAt paths last := by
  unfold makeDirectory at h
  split at h
  · contradiction
  · contradiction
  next location name hplace =>
  split at h
  · contradiction
  next hlength =>
  split at h
  · contradiction
  next hnone =>
  obtain rfl := Except.ok.inj h
  obtain ⟨hcheck, hdirectory, hdot, hdots, names, hsteps, hfollow⟩ :=
    t.of_place_eq_ok path name location hplace
  have hput := t.entry_put (location ++ [name]) (by simp) .directory
  have hmore : t.HasMoreDirectories (t.put (location ++ [name]) .directory) := by
    refine ⟨rfl, fun other => ?_⟩
    by_cases hother : other = location ++ [name]
    · exact .inr ⟨hother ▸ hnone, (hput other).trans (if_pos hother)⟩
    · exact .inl ((hput other).trans (if_neg hother))
  refine ⟨hmore, fun other hother => ⟨path, hpath, ?_⟩⟩
  have hnew : other = location ++ [name] := by
    apply Decidable.byContradiction
    intro hne
    exact hother ((hput other).trans (if_neg hne))
  subst hnew
  apply (find_eq_directory_iff _ path _).mpr
  refine ⟨hcheck, ?_, (hput _).trans (if_pos rfl)⟩
  rw [hsteps]
  exact follow_concat _ _ location names name hdot hdots (Nat.le_of_not_lt hlength)
    (hmore.keepsDirectories.directories location hdirectory)
    (hmore.keepsDirectories.follow _ location names hfollow)

end Tree

namespace FileAccess

/-- Actions on file trees that at most add directories to which some paths lead. -/
def MakesAt {α : Type} (paths : List String) (act : StateM Tree α) : Prop :=
  ∀ t : Tree, t.HasDirectoriesAt paths (act t).2

/-- A result adds no directory. -/
theorem makesAt_pure {α : Type} (paths : List String) (a : α) :
    MakesAt paths (pure a : StateM Tree α) :=
  fun t => .refl t paths

/-- A question adds no directory. -/
theorem makesAt_ask {α : Type} (paths : List String) (question : Tree → α) :
    MakesAt paths (ask question) :=
  fun t => .refl t paths

/-- Actions that add directories can follow one another. -/
theorem makesAt_bind {α β : Type} {paths : List String} {act : StateM Tree α}
    {rest : α → StateM Tree β} (h : MakesAt paths act) (hrest : ∀ a, MakesAt paths (rest a)) :
    MakesAt paths (act >>= rest) :=
  fun t => (h t).trans (hrest _ _)

/-- Making one directory adds at most this one. -/
theorem makesAt_makeDirectory (paths : List String) (path : String) (hpath : path ∈ paths) :
    MakesAt paths (makeDirectory (m := StateM Tree) path) := by
  intro t
  show t.HasDirectoriesAt paths (change (·.makeDirectory path) t).2
  unfold change
  split
  · next last h => exact t.hasDirectoriesAt_makeDirectory last path paths hpath h
  · exact .refl t paths

/-- Making the missing ones of some directories adds at most these. -/
theorem makesAt_makeMissing (paths all : List String) (h : ∀ path ∈ paths, path ∈ all) :
    MakesAt all (makeMissing (m := StateM Tree) paths) := by
  have hcheck (path : String) (error : FileError) :
      MakesAt all (do
        let there ← isDirectory (m := StateM Tree) path
        return if there then Except.ok () else .error error) :=
    makesAt_bind (makesAt_ask all _) fun _ => makesAt_pure all _
  induction paths with
  | nil => exact makesAt_pure all _
  | cons path above ih =>
    obtain ⟨hpath, habove⟩ := List.forall_mem_cons.mp h
    refine makesAt_bind (makesAt_makeDirectory all path hpath) fun made => ?_
    split
    · exact makesAt_pure all _
    · refine makesAt_bind (ih habove) fun madeAbove => ?_
      split
      · exact makesAt_pure all _
      · refine makesAt_bind (makesAt_makeDirectory all path hpath) fun again => ?_
        split
        · exact makesAt_pure all _
        · exact hcheck path _
    · exact hcheck path _

end FileAccess

end UnitSystems
