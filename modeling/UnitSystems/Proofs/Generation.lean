import UnitSystems.Proofs.Command.Running

/-!
# What writing one file changes

A definition that is not valid leaves the file tree as it was. A file that was written holds the
generated text and nothing of what stood there before. Of everything else in the tree at most the
directories above the file are new, and nothing else is changed.
-/

namespace UnitSystems

/-- A tree in which a file was written: the path leads to a file with the text, every directory
that is new is one that a path above leads to, and what stood elsewhere in the tree stays. -/
structure Tree.IsTarget (t : Tree) (path text : String) (last : Tree) : Prop where
  workingDirectory : last.workingDirectory = t.workingDirectory
  file : last.find path = .ok (t.destination path, .file (.text text))
  others : ∀ location, location ≠ t.destination path →
    last.entry? location ≠ t.entry? location → t.entry? location = none ∧
      ∃ above, Path.IsAbove above path ∧ last.find above = .ok (location, .directory)

namespace Generator

/-- The text of a valid definition is the file of its system. -/
theorem generate_of_validate (g : Generator) (d : Definition) (s : Specification)
    (h : d.validate g.limits = .ok s) : g.generate d = .ok (Generated.file s g.options) := by
  rw [generate, h]
  rfl

/-- A path that is given back is the target, and its file was written. -/
theorem of_write_eq_ok (g : Generator) (s : Specification) (directory path : String)
    (t last : Tree) (h : g.write (m := StateM Tree) s directory t = (.ok path, last)) :
    path = target s directory ∧ t.IsTarget path (Generated.file s g.options) last := by
  rcases hwritten : FileAccess.writeWithParents (m := StateM Tree) (target s directory)
    (Generated.file s g.options) t with ⟨result, after⟩
  cases result with
  | error error =>
    rw [g.write_error directory s t after error hwritten] at h
    cases h
  | ok _ =>
    rw [g.write_ok directory s t after hwritten] at h
    obtain ⟨hpath, rfl⟩ := Prod.mk.inj h
    obtain rfl := Except.ok.inj hpath
    have hfile := t.isWritten_writeWithParents after (target s directory) _ hwritten
    exact ⟨rfl, hfile.workingDirectory, hfile.file,
      t.entry_writeWithParents after (target s directory) _ hwritten⟩

/-- Generating into a directory touches the target alone. A definition that is not valid leaves the
tree as it was. A path that is given back is the target of the definition below the directory, and
leads to a file with the text that is generated from the definition; what else is new in the tree
are directories above this path, and what else was there stays as it was. The result and the tree
are those of checking first and writing then. -/
theorem generateTo_frame (g : Generator) (d : Definition) (directory : String) (t : Tree) :
    (∀ error, d.validate g.limits = .error error →
      g.generateTo (m := StateM Tree) d directory t = (.error error, t)) ∧
    (∀ path last, g.generateTo (m := StateM Tree) d directory t = (.ok path, last) →
      path = Path.join directory d.outputTarget ∧
        ∃ text, g.generate d = .ok text ∧ last.readFile path = .ok text ∧
          t.IsTarget path text last) ∧
    ∀ s, d.validate g.limits = .ok s →
      g.generateTo (m := StateM Tree) d directory t =
        g.write (m := StateM Tree) s directory t := by
  have hinvalid (error : Error) (h : d.validate g.limits = .error error) :
      g.generateTo (m := StateM Tree) d directory t = (.error error, t) := by
    simp only [generateTo, h]
    rfl
  have hvalid (s : Specification) (h : d.validate g.limits = .ok s) :
      g.generateTo (m := StateM Tree) d directory t =
        g.write (m := StateM Tree) s directory t := by
    simp only [generateTo, h]
  refine ⟨hinvalid, ?_, hvalid⟩
  intro path last h
  cases hs : d.validate g.limits with
  | error error =>
    rw [hinvalid error hs] at h
    cases h
  | ok s =>
    rw [hvalid s hs] at h
    obtain ⟨hpath, htarget⟩ := g.of_write_eq_ok s directory path t last h
    refine ⟨hpath.trans (d.target_of_validate g.limits s hs directory), _,
      g.generate_of_validate d s hs, ?_, htarget⟩
    exact last.readFile_of_find path _ _ htarget.file

/-- A tree in which a file stands where the system below is written, and another one beside it. -/
def sourceTree : Tree where
  entries := [(["src"], .directory), (["src", "motion.rs"], .file (.text "old")),
    (["src", "lib.rs"], .file (.text "kept"))]

/-- The system of motion with a target behind a directory that has to be made. -/
def nestedDefinition : Definition :=
  { motionDefinition with output := some "made/../src/motion.rs" }

/-- A file is replaced as a whole, behind a new directory, and the one beside it stays. -/
theorem generateTo_frame_motion :
    ∃ last text, generateTo (m := StateM Tree) {} nestedDefinition "." sourceTree =
        (.ok "./made/../src/motion.rs", last) ∧
      generate {} nestedDefinition = .ok text ∧
      last.readFile "./made/../src/motion.rs" = .ok text ∧
      last.entry? ["src", "lib.rs"] = some (.file (.text "kept")) ∧
      last.entry? ["made"] = some .directory := by
  have hresult : (generateTo (m := StateM Tree) {} nestedDefinition "." sourceTree).1 =
      .ok "./made/../src/motion.rs" := eq_ok_of_toOption _ _ (by decide +kernel)
  have hmade : Tree.entry? (generateTo (m := StateM Tree) {} nestedDefinition "." sourceTree).2
      ["made"] = some .directory := by decide +kernel
  obtain ⟨-, hwritten, -⟩ := generateTo_frame {} nestedDefinition "." sourceTree
  obtain ⟨-, text, htext, hread, htarget⟩ := hwritten _ _ (Prod.ext hresult rfl)
  refine ⟨_, text, Prod.ext hresult rfl, htext, hread, ?_, hmade⟩
  apply Decidable.byContradiction
  intro hchanged
  obtain ⟨hnone, -⟩ := htarget.others ["src", "lib.rs"] (by decide +kernel) hchanged
  contradiction

end Generator

end UnitSystems
