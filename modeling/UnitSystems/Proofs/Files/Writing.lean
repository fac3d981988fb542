import UnitSystems.Proofs.Files.Ancestors
import UnitSystems.Proofs.Files.Making

/-!
# What writing changes

A file that was written holds its text at the location its path leads to, every other file is
untouched, and every directory stays. Files written one after the other therefore hold, at the end,
the text that was written last to their location.
-/

namespace UnitSystems

namespace Tree

/-- A tree after one file was written: the path leads to a file with the text where there was no
directory, and elsewhere at most directories were added. -/
structure IsWritten (t : Tree) (path text : String) (last : Tree) : Prop where
  workingDirectory : last.workingDirectory = t.workingDirectory
  file : last.find path = .ok (t.destination path, .file (.text text))
  noDirectory : t.entry? (t.destination path) ≠ some .directory
  others : ∀ location, location ≠ t.destination path → t.Adds last location

/-- Every directory is still there after a file was written. -/
theorem IsWritten.keepsDirectories {t last : Tree} {path text : String}
    (h : t.IsWritten path text last) : t.KeepsDirectories last := by
  refine ⟨h.workingDirectory, fun location hdirectory => ?_⟩
  have hne : location ≠ t.destination path := fun heq => h.noDirectory (heq ▸ hdirectory)
  exact (h.others location hne).directory hdirectory

/-- A path with a place leads to the name there. -/
theorem destination_of_place (t : Tree) (path name : String) (location : Location)
    (h : t.place path = .ok (location, some name)) : t.destination path = location ++ [name] := by
  obtain ⟨-, -, hdot, hdots, names, hsteps, hfollow⟩ := t.of_place_eq_ok path name location h
  rw [destination, hsteps, List.foldl_append, ← t.eq_foldl_of_follow _ _ _ hfollow,
    List.foldl_cons, List.foldl_nil, next_name location name hdot hdots]

/-- A file that was put into a directory is found there. -/
theorem isWritten_put (t : Tree) (path text name : String) (location : Location)
    (hplace : t.place path = .ok (location, some name)) (hslash : endsInSlash path = false)
    (hlength : name.utf8ByteSize ≤ longestName)
    (hentry : t.entry? (location ++ [name]) ≠ some .directory) :
    t.IsWritten path text (t.put (location ++ [name]) (.file (.text text))) := by
  obtain ⟨hcheck, hdirectory, hdot, hdots, names, hsteps, hfollow⟩ :=
    t.of_place_eq_ok path name location hplace
  have hdestination := t.destination_of_place path name location hplace
  have hput := t.entry_put (location ++ [name]) (by simp) (.file (.text text))
  have hothers : ∀ other, other ≠ location ++ [name] →
      entry? (t.put (location ++ [name]) (.file (.text text))) other = t.entry? other := by
    intro other hother
    rw [hput, if_neg hother]
  have hkeeps : t.KeepsDirectories (t.put (location ++ [name]) (.file (.text text))) := by
    refine ⟨rfl, fun other hother => ?_⟩
    rw [hothers other fun heq => hentry (heq ▸ hother), hother]
  refine
    { workingDirectory := rfl
      file := ?_
      noDirectory := hdestination ▸ hentry
      others := fun other hother => .inl (hothers other (hdestination ▸ hother)) }
  rw [find_eq_file_iff, hdestination, hsteps]
  refine ⟨hcheck, hslash, ?_, by rw [hput, if_pos rfl]⟩
  exact follow_concat _ _ location names name hdot hdots hlength
    (hkeeps.directories location hdirectory) (hkeeps.follow _ location names hfollow)

/-- A file that was written is found where its path leads to. -/
theorem isWritten_writeFile (t last : Tree) (path text : String)
    (h : t.writeFile path text = .ok last) : t.IsWritten path text last := by
  unfold writeFile at h
  split at h
  · contradiction
  · contradiction
  next location name hplace =>
  split at h
  · contradiction
  next hslash =>
  split at h
  · contradiction
  next hlength =>
  split at h
  · contradiction
  next hentry =>
  obtain rfl := Except.ok.inj h
  exact t.isWritten_put path text name location hplace (by simpa using hslash)
    (Nat.le_of_not_lt hlength) (fun hdirectory => hentry hdirectory)

/-- Nothing else is changed when a file is written. -/
theorem entry_writeFile (t last : Tree) (path text : String) (h : t.writeFile path text = .ok last)
    (location : Location) (hlocation : location ≠ t.destination path) :
    last.entry? location = t.entry? location := by
  unfold writeFile at h
  split at h
  · contradiction
  · contradiction
  next directory name hplace =>
  split at h
  · contradiction
  split at h
  · contradiction
  split at h
  · contradiction
  obtain rfl := Except.ok.inj h
  rw [t.destination_of_place path name directory hplace] at hlocation
  rw [t.entry_put _ (by simp), if_neg hlocation]

/-- It does not matter that directories were added before the file was written. -/
theorem HasMoreDirectories.isWritten {t middle last : Tree} (h : t.HasMoreDirectories middle)
    {path text : String} (hwritten : middle.IsWritten path text last) :
    t.IsWritten path text last := by
  have hdestination := t.destination_congr middle h.workingDirectory path
  refine
    { workingDirectory := hwritten.workingDirectory.trans h.workingDirectory
      file := hdestination ▸ hwritten.file
      noDirectory := fun hdirectory => ?_
      others := fun location hlocation => ?_ }
  · exact hwritten.noDirectory (hdestination ▸ (h.entries _).directory hdirectory)
  · exact (h.entries location).trans (hwritten.others location (hdestination ▸ hlocation))

/-- A path that leads to a file goes on doing so after a file was written. What it leads to is what
was written if that went to the same location. -/
theorem IsWritten.find {t last : Tree} {path text : String} (h : t.IsWritten path text last)
    (other : String) (location : Location) (content : Content)
    (hother : t.find other = .ok (location, .file content)) :
    last.find other =
      .ok (location, .file (if t.destination path = location then .text text else content)) := by
  refine h.keepsDirectories.find other location content _ hother ?_
  by_cases hsame : t.destination path = location
  · have hfile := ((last.find_eq_file_iff _ _ _).mp h.file).2.2.2
    rw [if_pos hsame, ← hsame, hfile]
  · have hentry := ((t.find_eq_file_iff _ _ _).mp hother).2.2.2
    rw [if_neg hsame]
    rcases h.others location (Ne.symm hsame) with hstays | ⟨hnone, -⟩
    · exact hstays.trans hentry
    · exact absurd (hnone.symm.trans hentry) (by simp)

/-- What it takes for a file to be written after the directories above it were made. -/
theorem exists_of_writeWithParents (t last : Tree) (path text : String)
    (h : FileAccess.writeWithParents (m := StateM Tree) path text t = (.ok (), last)) :
    ∃ paths middle, (∀ above ∈ paths, Path.IsAbove above path) ∧
      t.HasDirectoriesAt paths middle ∧ middle.writeFile path text = .ok last := by
  have hwrite (middle : Tree)
      (hchange : FileAccess.change (·.writeFile path text) middle = (.ok (), last)) :
      middle.writeFile path text = .ok last := by
    unfold FileAccess.change at hchange
    split at hchange
    · next written hwritten => exact (Prod.mk.inj hchange).2 ▸ hwritten
    · cases hchange
  unfold FileAccess.writeWithParents at h
  cases hparent : Path.parent? path with
  | none =>
    rw [hparent] at h
    exact ⟨[], t, List.forall_mem_nil _, .refl t [], hwrite t h⟩
  | some parent =>
    rw [hparent] at h
    have hadded := FileAccess.makesAt_makeMissing (Path.ancestors (parent.length + 1) parent) _
      (fun _ hpath => hpath) t
    rcases hmade : FileAccess.makeMissing (m := StateM Tree)
      (Path.ancestors (parent.length + 1) parent) t with ⟨made, middle⟩
    rw [hmade] at hadded
    simp only [FileAccess.makeDirectories, bind, StateT.bind, hmade] at h
    cases made with
    | error error => cases h
    | ok _ =>
      refine ⟨_, middle, ?_, hadded, hwrite middle h⟩
      intro above habove
      exact Path.isAbove_of_mem_ancestors _ path parent above hparent habove

/-- A file is written after the directories above it were made. -/
theorem isWritten_writeWithParents (t last : Tree) (path text : String)
    (h : FileAccess.writeWithParents (m := StateM Tree) path text t = (.ok (), last)) :
    t.IsWritten path text last := by
  obtain ⟨paths, middle, -, hadded, hwritten⟩ := t.exists_of_writeWithParents last path text h
  exact hadded.toHasMoreDirectories.isWritten (middle.isWritten_writeFile last path text hwritten)

/-- Each new directory is one above the path that was written, and what else stood in the tree
stays. -/
theorem entry_writeWithParents (t last : Tree) (path text : String)
    (h : FileAccess.writeWithParents (m := StateM Tree) path text t = (.ok (), last))
    (location : Location) (hlocation : location ≠ t.destination path)
    (hnew : last.entry? location ≠ t.entry? location) :
    t.entry? location = none ∧
      ∃ above, Path.IsAbove above path ∧ last.find above = .ok (location, .directory) := by
  obtain ⟨paths, middle, habove, hadded, hwritten⟩ :=
    t.exists_of_writeWithParents last path text h
  have hdestination := t.destination_congr middle hadded.workingDirectory path
  have hlast : last.entry? location = middle.entry? location :=
    middle.entry_writeFile last path text hwritten location (hdestination ▸ hlocation)
  rw [hlast] at hnew
  obtain ⟨above, hmem, hfind⟩ := hadded.led location hnew
  have hkeeps := (middle.isWritten_writeFile last path text hwritten).keepsDirectories
  refine ⟨?_, above, habove above hmem, hkeeps.find_directory above location hfind⟩
  rcases hadded.entries location with hsame | ⟨hnone, -⟩
  · contradiction
  · exact hnone

/-- Trees after files, each a path with a text, were written one after the other. -/
inductive WrittenInTurn : Tree → List (String × String) → Tree → Prop
  | nil (t : Tree) : WrittenInTurn t [] t
  | cons {t middle last : Tree} {path text : String} {files : List (String × String)}
      (first : t.IsWritten path text middle) (rest : WrittenInTurn middle files last) :
      WrittenInTurn t ((path, text) :: files) last

/-- Writes files one after the other, each with the directories above it, up to the first failure,
which is told with its path. -/
def writeFiles : List (String × String) → StateM Tree (Except (String × FileError) Unit)
  | [] => pure (.ok ())
  | (path, text) :: files => do
    match ← FileAccess.writeWithParents path text with
    | .ok () => writeFiles files
    | .error error => return .error (path, error)

/-- After a file that was written the others follow. -/
theorem writeFiles_cons_ok (t middle : Tree) (path text : String) (files : List (String × String))
    (h : FileAccess.writeWithParents (m := StateM Tree) path text t = (.ok (), middle)) :
    writeFiles ((path, text) :: files) t = writeFiles files middle := by
  simp only [writeFiles, bind, StateT.bind, h]

/-- After a file that could not be written nothing follows. -/
theorem writeFiles_cons_error (t middle : Tree) (path text : String)
    (files : List (String × String)) (error : FileError)
    (h : FileAccess.writeWithParents (m := StateM Tree) path text t = (.error error, middle)) :
    writeFiles ((path, text) :: files) t = (.error (path, error), middle) := by
  simp only [writeFiles, bind, StateT.bind, h]
  rfl

/-- Files that could all be written were written in turn. -/
theorem writtenInTurn_writeFiles (t last : Tree) (files : List (String × String))
    (h : writeFiles files t = (.ok (), last)) : WrittenInTurn t files last := by
  induction files generalizing t with
  | nil =>
    obtain rfl := (Prod.mk.inj h).2
    exact .nil t
  | cons file files ih =>
    obtain ⟨path, text⟩ := file
    rcases hmade : FileAccess.writeWithParents (m := StateM Tree) path text t with ⟨made, middle⟩
    cases made with
    | error error =>
      rw [writeFiles_cons_error t middle path text files error hmade] at h
      cases h
    | ok _ =>
      rw [writeFiles_cons_ok t middle path text files hmade] at h
      exact .cons (t.isWritten_writeWithParents middle path text hmade) (ih middle h)

/-- Writing files does not move the working directory. -/
theorem WrittenInTurn.workingDirectory {t last : Tree} {files : List (String × String)}
    (h : WrittenInTurn t files last) : last.workingDirectory = t.workingDirectory := by
  induction h with
  | nil t => rfl
  | cons first rest ih => exact ih.trans first.workingDirectory

/-- Files that are written in turn are written in two parts. -/
theorem WrittenInTurn.split {t last : Tree} {files : List (String × String)}
    (before after : List (String × String)) (hfiles : files = before ++ after)
    (h : WrittenInTurn t files last) :
    ∃ middle, WrittenInTurn t before middle ∧ WrittenInTurn middle after last := by
  induction h generalizing before with
  | nil t =>
    obtain ⟨rfl, rfl⟩ := List.nil_eq_append_iff.mp hfiles
    exact ⟨t, .nil t, .nil t⟩
  | @cons t middle last path text files first rest ih =>
    cases before with
    | nil =>
      rw [List.nil_append] at hfiles
      exact ⟨t, .nil t, hfiles ▸ .cons first rest⟩
    | cons file before =>
      obtain ⟨rfl, hrest⟩ := List.cons.inj hfiles
      obtain ⟨between, hbefore, hafter⟩ := ih before hrest
      exact ⟨between, .cons first hbefore, hafter⟩

/-- A path that leads to a file goes on doing so while files are written, and what it leads to
stays unless one of them goes to the same location. -/
theorem WrittenInTurn.find {t last : Tree} {files : List (String × String)}
    (h : WrittenInTurn t files last) (path : String) (location : Location) (content : Content)
    (hpath : t.find path = .ok (location, .file content)) :
    ∃ now, last.find path = .ok (location, .file now) ∧
      ((∀ file ∈ files, t.destination file.1 ≠ location) → now = content) := by
  induction h generalizing content with
  | nil t => exact ⟨content, hpath, fun _ => rfl⟩
  | @cons t middle last other text files first rest ih =>
    obtain ⟨now, hnow, hsame⟩ := ih _ (first.find path location content hpath)
    refine ⟨now, hnow, fun hfiles => ?_⟩
    rw [List.forall_mem_cons] at hfiles
    rw [hsame fun file hfile => ?_, if_neg hfiles.1]
    rw [t.destination_congr middle first.workingDirectory]
    exact hfiles.2 file hfile

/-- At the end each path leads to the location that its spelling says, where the text stands that
was written there last. -/
theorem WrittenInTurn.find_of_eq_append {t last : Tree} {files : List (String × String)}
    (h : WrittenInTurn t files last) (before after : List (String × String)) (path text : String)
    (hfiles : files = before ++ (path, text) :: after) :
    ∃ now, last.find path = .ok (t.destination path, .file now) ∧
      ((∀ file ∈ after, t.destination file.1 ≠ t.destination path) → now = .text text) := by
  obtain ⟨middle, hbefore, hafter⟩ := h.split before _ hfiles
  cases hafter with
  | @cons _ next _ _ _ _ first rest =>
    have hmiddle := t.destination_congr middle hbefore.workingDirectory
    have hnext (path : String) : next.destination path = t.destination path :=
      (middle.destination_congr next first.workingDirectory path).trans (hmiddle path)
    obtain ⟨now, hnow, hsame⟩ := rest.find path _ _ first.file
    rw [hmiddle path] at hnow hsame
    exact ⟨now, hnow, fun hlast => hsame fun file hfile => hnext file.1 ▸ hlast file hfile⟩

end Tree

end UnitSystems
