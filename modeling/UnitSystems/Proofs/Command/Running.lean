import UnitSystems.Proofs.Command.Survey
import UnitSystems.Proofs.Files.Writing

/-!
# Running sessions

What the parts of a session leave behind on a console and a file tree. Logging touches neither what
was printed nor the tree; reading a definition file leaves the tree alone; the files of several
systems are written one after the other, up to the first failure.
-/

namespace UnitSystems

namespace Generator

/-- The file of a system was written. -/
theorem write_ok (g : Generator) (directory : String) (s : Specification) (t last : Tree)
    (h : FileAccess.writeWithParents (m := StateM Tree) (target s directory)
      (Generated.file s g.options) t = (.ok (), last)) :
    g.write (m := StateM Tree) s directory t = (.ok (target s directory), last) := by
  simp only [write, bind, StateT.bind, h]
  rfl

/-- The file of a system could not be written. -/
theorem write_error (g : Generator) (directory : String) (s : Specification) (t last : Tree)
    (error : FileError) (h : FileAccess.writeWithParents (m := StateM Tree) (target s directory)
      (Generated.file s g.options) t = (.error error, last)) :
    g.write (m := StateM Tree) s directory t =
      (.error (.io (target s directory) error.message), last) := by
  simp only [write, bind, StateT.bind, h]
  rfl

end Generator

namespace Command

variable {α β : Type}

/-- What a session leaves behind: its result, the console and the file tree. -/
def runOn (act : Session (StateM Tree) α) (console : Console) (t : Tree) :
    (Except Failure α × Console) × Tree :=
  act.run.run console t

/-- A session goes on with what is left behind. -/
theorem runOn_bind (act : Session (StateM Tree) α) (rest : α → Session (StateM Tree) β)
    (console : Console) (t : Tree) : runOn (act >>= rest) console t =
      (ExceptT.bindCont rest (runOn act console t).1.1 : StateT Console (StateM Tree) _)
        (runOn act console t).1.2 (runOn act console t).2 :=
  rfl

/-- A session goes on after a result. -/
theorem runOn_bind_ok (act : Session (StateM Tree) α) (rest : α → Session (StateM Tree) β)
    (console now : Console) (t last : Tree) (a : α)
    (h : runOn act console t = ((.ok a, now), last)) :
    runOn (act >>= rest) console t = runOn (rest a) now last := by
  rw [runOn_bind, h]
  rfl

/-- A session ends with a failure. -/
theorem runOn_bind_error (act : Session (StateM Tree) α) (rest : α → Session (StateM Tree) β)
    (console now : Console) (t last : Tree) (failure : Failure)
    (h : runOn act console t = ((.error failure, now), last)) :
    runOn (act >>= rest) console t = ((.error failure, now), last) := by
  rw [runOn_bind, h]
  rfl

/-- Sessions that leave the same behind are gone on with alike. -/
theorem runOn_bind_congr (act other : Session (StateM Tree) α)
    (rest : α → Session (StateM Tree) β) (console now : Console) (t last : Tree)
    (h : runOn act console t = runOn other now last) :
    runOn (act >>= rest) console t = runOn (other >>= rest) now last := by
  rw [runOn_bind, runOn_bind, h]

/-- A result is gone on with. -/
theorem runOn_get_ok (result : Except Error α) (rest : α → Session (StateM Tree) β)
    (console : Console) (t : Tree) (a : α) (h : result = .ok a) :
    runOn (Session.get result >>= rest) console t = runOn (rest a) console t :=
  runOn_bind_ok _ rest console console t t a (by rw [h]; rfl)

/-- An error ends the session. -/
theorem runOn_get_error (result : Except Error α) (rest : α → Session (StateM Tree) β)
    (console : Console) (t : Tree) (error : Error) (h : result = .error error) :
    runOn (Session.get result >>= rest) console t = ((.error (.error error), console), t) :=
  runOn_bind_error _ rest console console t t _ (by rw [h]; rfl)

/-- The answer of an operation on files is gone on with. -/
theorem runOn_access (act : StateM Tree α) (rest : α → Session (StateM Tree) β) (console : Console)
    (t last : Tree) (a : α) (h : act t = (a, last)) :
    runOn (Session.access act >>= rest) console t = runOn (rest a) console last := by
  refine runOn_bind_ok _ rest console console t last a ?_
  show ((Except.ok (act t).1, console), (act t).2) = _
  rw [h]

/-- A line is logged. -/
theorem runOn_log (line : String) (rest : Unit → Session (StateM Tree) β) (printed logged : String)
    (t : Tree) : runOn (Session.log line >>= rest) ⟨printed, logged⟩ t =
      runOn (rest ()) ⟨printed, logged ++ line ++ "\n"⟩ t :=
  runOn_bind_ok _ rest _ _ t t () rfl

/-- Logging several lines changes only what was logged. -/
theorem runOn_logLines (lines : List String) (printed logged : String) (t : Tree) :
    ∃ now, runOn (forIn lines PUnit.unit fun line _ => do
        Session.log line
        pure (ForInStep.yield PUnit.unit)) ⟨printed, logged⟩ t = ((.ok (), ⟨printed, now⟩), t) := by
  induction lines generalizing logged with
  | nil => exact ⟨logged, rfl⟩
  | cons line lines ih =>
    obtain ⟨now, hnow⟩ := ih (logged ++ line ++ "\n")
    have hline : runOn (do Session.log line; pure (ForInStep.yield PUnit.unit))
        ⟨printed, logged⟩ t = ((.ok (.yield ()), ⟨printed, logged ++ line ++ "\n"⟩), t) := rfl
    refine ⟨now, ?_⟩
    rw [List.forIn_cons, runOn_bind_ok _ _ _ _ t t _ hline]
    exact hnow

/-- A definition file that cannot be read. -/
theorem runOn_loadFile_of_unreadable (path : String) (console : Console) (t : Tree)
    (error : FileError) (h : t.readFile path = .error error) :
    runOn (loadFile path) console t = ((.error (.error (.io path error.message)), console), t) := by
  have hread : FileAccess.readFile (m := StateM Tree) path t = (.error error, t) :=
    congrArg (·, t) h
  exact runOn_access _ _ console t t _ hread

/-- A definition file whose text is no definition file. -/
theorem runOn_loadFile_of_unparsed (path text : String) (console : Console) (t : Tree)
    (error : Error) (h : t.readFile path = .ok text)
    (hparse : DefinitionFile.parse text (some path) {} = .error error) :
    runOn (loadFile path) console t = ((.error (.error error), console), t) := by
  have hread : FileAccess.readFile (m := StateM Tree) path t = (.ok text, t) := congrArg (·, t) h
  exact (runOn_access _ _ console t t _ hread).trans (runOn_get_error _ _ console t error hparse)

/-- A definition file that is read. -/
theorem runOn_loadFile (path text printed logged : String) (t : Tree)
    (definitions : List Definition) (h : t.readFile path = .ok text)
    (hparse : DefinitionFile.parse text (some path) {} = .ok definitions) :
    ∃ now, runOn (loadFile path) ⟨printed, logged⟩ t = ((.ok definitions, ⟨printed, now⟩), t) := by
  have hread : FileAccess.readFile (m := StateM Tree) path t = (.ok text, t) := congrArg (·, t) h
  apply Exists.intro
  refine (runOn_access _ _ _ t t _ hread).trans ?_
  refine (runOn_get_ok _ _ _ t definitions hparse).trans ?_
  exact runOn_log _ _ printed logged t

/-- The file of a system was written. -/
theorem runOn_writeSystem_ok (g : Generator) (directory : String) (s : Specification)
    (printed logged : String) (t last : Tree)
    (h : FileAccess.writeWithParents (m := StateM Tree) (Generator.target s directory)
      (Generated.file s g.options) t = (.ok (), last)) :
    ∃ now, runOn (writeSystem g directory s) ⟨printed, logged⟩ t =
      ((.ok (Generator.target s directory), ⟨printed, now⟩), last) := by
  obtain ⟨lines, hlines⟩ := runOn_logLines (sectionLines s) printed logged t
  apply Exists.intro
  refine (runOn_bind_ok _ _ _ _ t t () hlines).trans ?_
  refine (runOn_access _ _ _ t last _ (g.write_ok directory s t last h)).trans ?_
  refine (runOn_get_ok _ _ _ last _ rfl).trans ?_
  exact runOn_log _ _ printed lines last

/-- The file of a system could not be written. -/
theorem runOn_writeSystem_error (g : Generator) (directory : String) (s : Specification)
    (printed logged : String) (t last : Tree) (error : FileError)
    (h : FileAccess.writeWithParents (m := StateM Tree) (Generator.target s directory)
      (Generated.file s g.options) t = (.error error, last)) :
    ∃ now, runOn (writeSystem g directory s) ⟨printed, logged⟩ t =
      ((.error (.error (.io (Generator.target s directory) error.message)), ⟨printed, now⟩),
        last) := by
  obtain ⟨lines, hlines⟩ := runOn_logLines (sectionLines s) printed logged t
  refine ⟨lines, (runOn_bind_ok _ _ _ _ t t () hlines).trans ?_⟩
  refine (runOn_access _ _ _ t last _ (g.write_error directory s t last error h)).trans ?_
  exact runOn_get_error _ _ _ last _ rfl

/-- The files of systems: the path and the text of each. -/
def filesOf (g : Generator) (directory : String) (specifications : List Specification) :
    List (String × String) :=
  specifications.map fun s => (Generator.target s directory, Generated.file s g.options)

/-- The files of systems are written one after the other. A failure ends the session. -/
theorem runOn_writeSystems (g : Generator) (directory : String)
    (specifications : List Specification) (printed logged : String) (t : Tree) :
    ∃ now, runOn (writeSystems g directory specifications) ⟨printed, logged⟩ t =
      match Tree.writeFiles (filesOf g directory specifications) t with
      | (.ok (), last) =>
        ((.ok (specifications.map fun s => (s.name, Generator.target s directory)),
          ⟨printed, now⟩), last)
      | (.error (path, error), last) =>
        ((.error (.error (.io path error.message)), ⟨printed, now⟩), last) := by
  induction specifications generalizing logged t with
  | nil => exact ⟨logged, rfl⟩
  | cons s specifications ih =>
    rcases hmade : FileAccess.writeWithParents (m := StateM Tree) (Generator.target s directory)
      (Generated.file s g.options) t with ⟨made, middle⟩
    cases made with
    | error failure =>
      obtain ⟨now, hnow⟩ :=
        runOn_writeSystem_error g directory s printed logged t middle failure hmade
      rw [filesOf, List.map_cons, Tree.writeFiles_cons_error t middle _ _ _ failure hmade]
      exact ⟨now, runOn_bind_error _ _ _ _ t middle _ hnow⟩
    | ok _ =>
      obtain ⟨first, hfirst⟩ := runOn_writeSystem_ok g directory s printed logged t middle hmade
      obtain ⟨now, hnow⟩ := ih first middle
      rw [filesOf, List.map_cons, Tree.writeFiles_cons_ok t middle _ _ _ hmade]
      refine ⟨now, (runOn_bind_ok _ _ _ _ t middle _ hfirst).trans ?_⟩
      rw [filesOf] at hnow
      split at hnow
      · next last _ => exact runOn_bind_ok _ _ _ _ middle last _ hnow
      · next path error last _ => exact runOn_bind_error _ _ _ _ middle last _ hnow

end Command

end UnitSystems
