import UnitSystems.Proofs.Command.Generate
import UnitSystems.Proofs.Files.Walk

/-!
# Loading a workspace

A workspace is loaded file by file, in the order of a walk. Whatever has the extension of definition
files is opened, and so a directory with this extension makes the loading fail. Where there is none,
the systems are those of all definition files, and the first one with a name is shown and evaluated,
else the one of the catalog.
-/

namespace UnitSystems

namespace Command

/-- Whether names lead below a directory to something with the extension of definition files. -/
def IsUnits (directory : String) (names : Location) : Prop :=
  Path.extension? (Tree.lastName directory names) = some "units"

instance (directory : String) (names : Location) : Decidable (IsUnits directory names) :=
  inferInstanceAs (Decidable (_ = _))

/-- The regular definition files at and below a directory, in the order of a walk. -/
structure AreDefinitionFiles (t : Tree) (directory : String) (location : Location)
    (files : List Location) : Prop where
  ordered : files.Pairwise Location.Precedes
  mem_iff : ∀ names, names ∈ files ↔
    IsUnits directory names ∧ ∃ content, t.entry? (location ++ names) = some (.file content)

/-- A walk whose definition files can be loaded up to some visit: they are counted, their systems
come first and what follows is loaded as it is alone. -/
theorem runOn_loadVisits_append (t : Tree) (paths : List String) (systems : List (List Definition))
    (h : List.Forall₂ (Declares t) (paths.filter isDefinitionFile) systems) (rest : List Visit)
    (printed logged : String) :
    ∃ now, runOn (loadVisits (paths.map Visit.entry ++ rest)) ⟨printed, logged⟩ t =
      runOn (do
        let (files, others) ← loadVisits rest
        return (files + systems.length, systems.flatten ++ others)) ⟨printed, now⟩ t := by
  induction paths generalizing systems logged with
  | nil =>
    obtain rfl := List.forall₂_nil_left_iff.mp h
    exact ⟨logged, congrArg (runOn · _ t) (bind_pure _).symm⟩
  | cons path paths ih =>
    rw [List.map_cons, List.cons_append, loadVisits]
    by_cases hpath : isDefinitionFile path = true
    · rw [List.filter_cons_of_pos hpath, List.forall₂_cons_left_iff] at h
      obtain ⟨first, others, ⟨text, htext, hparse⟩, hothers, rfl⟩ := h
      obtain ⟨afterFirst, hfirst⟩ := runOn_loadFile path text printed logged t first htext hparse
      obtain ⟨now, hrest⟩ := ih others hothers afterFirst
      refine ⟨now, ?_⟩
      rw [if_pos hpath, runOn_bind_ok _ _ _ _ t t first hfirst,
        runOn_bind_congr _ _ _ _ _ t t hrest, bind_assoc]
      simp [Nat.add_assoc]
    · rw [List.filter_cons_of_neg hpath] at h
      rw [if_neg hpath]
      exact ih systems h logged

/-- Of what a walk comes to, the definition files are loaded, in order. -/
theorem runOn_loadVisits (t : Tree) (paths : List String) (systems : List (List Definition))
    (h : List.Forall₂ (Declares t) (paths.filter isDefinitionFile) systems)
    (printed logged : String) :
    ∃ now, runOn (loadVisits (paths.map Visit.entry)) ⟨printed, logged⟩ t =
      ((.ok (systems.length, systems.flatten), ⟨printed, now⟩), t) := by
  obtain ⟨now, hnow⟩ := runOn_loadVisits_append t paths systems h [] printed logged
  rw [List.append_nil] at hnow
  refine ⟨now, hnow.trans ?_⟩
  show runOn (pure (0 + systems.length, systems.flatten ++ [])) _ t = _
  rw [Nat.zero_add, List.append_nil]
  rfl

/-- Behind files that can be loaded, what fails is what the loading ends with. -/
theorem runOn_loadVisits_of_failure (t : Tree) (paths : List String)
    (systems : List (List Definition))
    (h : List.Forall₂ (Declares t) (paths.filter isDefinitionFile) systems) (rest : List Visit)
    (failure : Failure)
    (hrest : ∀ console, runOn (loadVisits rest) console t = ((.error failure, console), t))
    (printed logged : String) :
    ∃ now, runOn (loadVisits (paths.map Visit.entry ++ rest)) ⟨printed, logged⟩ t =
      ((.error failure, ⟨printed, now⟩), t) := by
  obtain ⟨now, hnow⟩ := runOn_loadVisits_append t paths systems h rest printed logged
  exact ⟨now, hnow.trans (runOn_bind_error _ _ _ _ t t _ (hrest ⟨printed, now⟩))⟩

/-- The first definition file that cannot be read ends the loading. -/
theorem runOn_loadVisits_of_unreadable (t : Tree) (paths before after : List String)
    (path : String) (error : FileError)
    (hpaths : paths.filter isDefinitionFile = before ++ path :: after)
    (systems : List (List Definition)) (hbefore : List.Forall₂ (Declares t) before systems)
    (h : t.readFile path = .error error) (printed logged : String) :
    ∃ now, runOn (loadVisits (paths.map Visit.entry)) ⟨printed, logged⟩ t =
      ((.error (.error (.io path error.message)), ⟨printed, now⟩), t) := by
  obtain ⟨start, others, rfl, rfl, hothers⟩ := List.filter_eq_append_iff.mp hpaths
  obtain ⟨skipped, rest, rfl, hskipped, hpath, -⟩ := List.filter_eq_cons_iff.mp hothers
  have hfirst : (start ++ skipped).filter isDefinitionFile = start.filter isDefinitionFile := by
    rw [List.filter_append, List.filter_eq_nil_iff.mpr hskipped, List.append_nil]
  have hfails (console : Console) :
      runOn (loadVisits (.entry path :: rest.map Visit.entry)) console t =
        ((.error (.error (.io path error.message)), console), t) := by
    rw [loadVisits, if_pos hpath]
    exact runOn_bind_error _ _ _ _ t t _ (runOn_loadFile_of_unreadable path console t error h)
  obtain ⟨now, hnow⟩ := runOn_loadVisits_of_failure t (start ++ skipped) systems
    (hfirst.symm ▸ hbefore) _ _ hfails printed logged
  refine ⟨now, ?_⟩
  rw [← hnow, ← List.append_assoc, List.map_append, List.map_cons]

/-- A system is found for a name: the first one of the workspace with this name, else the one of the
catalog whose name differs at most in the case of letters. -/
inductive Finds (systems : List Definition) (name : String) : Except Error Definition → Prop
  | workspace (before after : List Definition) (d : Definition)
      (hsystems : systems = before ++ d :: after) (hbefore : ∀ other ∈ before, other.name ≠ name)
      (hname : d.name = name) : Finds systems name (.ok d)
  | catalog (d : Definition) (hsystems : ∀ other ∈ systems, other.name ≠ name)
      (hmem : d ∈ Catalog.systems)
      (hname : d.name.toList.map Catalog.upperLetter = name.toList.map Catalog.upperLetter) :
      Finds systems name (.ok d)
  | unknown (hsystems : ∀ other ∈ systems, other.name ≠ name)
      (hcatalog : ∀ d ∈ Catalog.systems,
        d.name.toList.map Catalog.upperLetter ≠ name.toList.map Catalog.upperLetter) :
      Finds systems name (.error (.unknownSystem name))

/-- The first system with a name, else the one of the catalog. -/
def firstNamed (systems : List Definition) (name : String) : Except Error Definition :=
  match systems.find? (·.name == name) with
  | some d => .ok d
  | none =>
    match Catalog.find? name with
    | some d => .ok d
    | none => .error (.unknownSystem name)

/-- The names of the catalog have no letters that could change their case. -/
theorem upperLetter_catalog : ∀ d ∈ Catalog.systems,
    d.name.toList.map Catalog.upperLetter = d.name.toList := by
  decide +kernel

/-- What is looked up for a name is what is found for it. -/
theorem finds_firstNamed (systems : List Definition) (name : String) :
    Finds systems name (firstNamed systems name) := by
  unfold firstNamed
  cases hfirst : systems.find? (·.name == name) with
  | some d =>
    obtain ⟨hname, before, after, hsystems, hbefore⟩ := List.find?_eq_some_iff_append.mp hfirst
    refine .workspace before after d hsystems ?_ (by simpa using hname)
    intro other hother
    simpa using hbefore other hother
  | none =>
    have hsystems : ∀ other ∈ systems, other.name ≠ name := by
      intro other hother
      simpa using List.find?_eq_none.mp hfirst other hother
    cases hcatalog : Catalog.find? name with
    | some d =>
      have hmem : d ∈ Catalog.systems := List.mem_of_find?_eq_some hcatalog
      have hname := List.find?_some hcatalog
      refine .catalog d hsystems hmem ?_
      rw [upperLetter_catalog d hmem]
      simpa using hname
    | none =>
      refine .unknown hsystems ?_
      intro d hd
      rw [upperLetter_catalog d hd]
      simpa using List.find?_eq_none.mp hcatalog d hd

/-- Shows a system that was found. -/
def showFound (json : Bool) (d : Definition) : Session (StateM Tree) Unit :=
  Session.print (if json then d.toJson.pretty ++ "\n" else Report.system d)

/-- Shows the value of an expression in a system that was found. -/
def dimFound (expression : String) (d : Definition) : Session (StateM Tree) Unit := do
  let s ← Session.get (d.validate {})
  let v ← Session.get (s.evaluate expression)
  let display ← Session.get ((s.format v).mapError Error.dimension)
  Session.print (Report.dimension s expression v display)

/-- Work on a system goes on with the one that is found in the workspace. -/
theorem runOn_findSystem {α : Type} (directory name : String) (count : Nat)
    (systems : List Definition) (console now : Console) (t : Tree)
    (h : runOn (loadWorkspace directory) console t = ((.ok (count, systems), now), t))
    (rest : Definition → Session (StateM Tree) α) :
    runOn (findSystem directory name >>= rest) console t =
      runOn (Session.get (firstNamed systems name) >>= rest) now t := by
  have hfind : runOn (findSystem directory name) console t =
      runOn (Session.get (firstNamed systems name)) now t := by
    rw [findSystem, runOn_bind_ok _ _ _ _ t t _ h]
    unfold firstNamed
    cases hfirst : systems.find? (·.name == name) with
    | some d =>
      simp only [hfirst]
      rfl
    | none =>
      cases hcatalog : Catalog.find? name with
      | some d =>
        simp only [hfirst]
        rfl
      | none =>
        simp only [hfirst]
        rfl
  cases hresult : firstNamed systems name with
  | ok d =>
    rw [hresult] at hfind
    rw [runOn_bind_ok _ _ _ now t t d hfind, runOn_get_ok _ _ now t d rfl]
  | error error =>
    rw [hresult] at hfind
    rw [runOn_bind_error _ _ _ now t t _ hfind, runOn_get_error _ _ now t error rfl]

/-- What stands below a directory and has the extension of definition files. -/
structure AreOpened (t : Tree) (directory : String) (location : Location)
    (opened : List Location) : Prop where
  ordered : opened.Pairwise Location.Precedes
  mem_iff : ∀ names, names ∈ opened ↔
    IsUnits directory names ∧ t.entry? (location ++ names) ≠ none

/-- Loading a workspace opens, in the order of a walk, whatever has the extension of definition
files. -/
theorem runOn_loadWorkspace (t : Tree) (directory : String) (location : Location)
    (hwell : t.IsWellFormed) (hfind : t.find directory = .ok (location, .directory)) :
    ∃ opened, ∃ paths : List String, AreOpened t directory location opened ∧
      paths.filter isDefinitionFile = opened.map (Tree.pathBelow directory) ∧
      ∀ console, runOn (loadWorkspace directory) console t =
        runOn (do
          let (files, systems) ← loadVisits (paths.map Visit.entry)
          Session.log ("INFO dimgen: loaded workspace files=" ++ files.repr ++ " systems=" ++
            systems.length.repr)
          return (files, systems)) console t := by
  obtain ⟨places, hvisited, hwalk⟩ := t.walk_of_find hwell.nodup directory location hfind
  have hunits : ∀ names ∈ places,
      isDefinitionFile (Tree.pathBelow directory names) = decide (IsUnits directory names) := by
    intro names hnames
    have hentry := (hvisited.mem_iff names).mp hnames
    have hnames : ∀ name ∈ names, Tree.IsName name := fun name hname =>
      hwell.isName _ hentry name (List.mem_append_right location hname)
    rw [isDefinitionFile, Tree.extension?_pathBelow directory names hnames, Bool.eq_iff_iff,
      beq_iff_eq, decide_eq_true_iff, IsUnits]
  refine ⟨places.filter (IsUnits directory ·), places.map (Tree.pathBelow directory),
    ⟨hvisited.ordered.filter _, fun names => ?_⟩, ?_, fun console => ?_⟩
  · rw [List.mem_filter, hvisited.mem_iff, decide_eq_true_iff]
    exact and_comm
  · rw [List.filter_map]
    exact congrArg (List.map _) (List.filter_congr hunits)
  · have haccess : FileAccess.walk (m := StateM Tree) directory t = (t.walk directory, t) := rfl
    rw [loadWorkspace, runOn_access _ _ console t t _ haccess, hwalk, List.map_map]
    rfl

/-- Where each of some things can be found, they can be listed. -/
theorem exists_forall₂ {α β : Type} (r : α → β → Prop) (as : List α)
    (h : ∀ a ∈ as, ∃ b, r a b) : ∃ bs, List.Forall₂ r as bs := by
  induction as with
  | nil => exact ⟨[], .nil⟩
  | cons a as ih =>
    obtain ⟨⟨b, hb⟩, hrest⟩ := List.forall_mem_cons.mp h
    obtain ⟨bs, hbs⟩ := ih hrest
    exact ⟨b :: bs, .cons hb hbs⟩

section

variable {t : Tree} {directory : String} {location : Location} {opened : List Location}

/-- Where no directory is opened, what is opened are the definition files. -/
theorem AreOpened.areDefinitionFiles (h : AreOpened t directory location opened)
    (hnone : ∀ names, IsUnits directory names → t.entry? (location ++ names) ≠ some .directory) :
    AreDefinitionFiles t directory location opened := by
  refine ⟨h.ordered, fun names => ?_⟩
  rw [h.mem_iff, and_congr_right_iff]
  intro hunits
  have hne := hnone names hunits
  cases hentry : t.entry? (location ++ names) with
  | none => simp
  | some entry =>
    cases entry with
    | directory => contradiction
    | file content => simp

/-- Of what is opened, everything but the directories declares systems when all definition files
do. -/
theorem AreOpened.exists_declares (h : AreOpened t directory location opened)
    (hfiles : ∀ names content, IsUnits directory names →
      t.entry? (location ++ names) = some (.file content) →
        ∃ systems, Declares t (Tree.pathBelow directory names) systems)
    (places : List Location)
    (hplaces : ∀ names ∈ places,
      names ∈ opened ∧ t.entry? (location ++ names) ≠ some .directory) :
    ∃ systems,
      List.Forall₂ (fun names => Declares t (Tree.pathBelow directory names)) places systems := by
  refine exists_forall₂ _ places fun names hnames => ?_
  obtain ⟨hopened, hne⟩ := hplaces names hnames
  obtain ⟨hunits, hsome⟩ := (h.mem_iff names).mp hopened
  cases hentry : t.entry? (location ++ names) with
  | none => contradiction
  | some entry =>
    cases entry with
    | directory => contradiction
    | file content => exact hfiles names content hunits hentry

/-- Definition files at and below a directory, next to whatever directories have their extension. -/
theorem AreOpened.exists_areDefinitionFiles (h : AreOpened t directory location opened) :
    ∃ files, AreDefinitionFiles t directory location files := by
  refine ⟨opened.filter fun names => t.entry? (location ++ names) ≠ some .directory,
    h.ordered.filter _, fun names => ?_⟩
  rw [List.mem_filter, h.mem_iff, decide_eq_true_iff, and_assoc, and_congr_right_iff]
  intro hunits
  cases hentry : t.entry? (location ++ names) with
  | none => simp
  | some entry => cases entry <;> simp

/-- The first directory in the order of a walk that has the extension of definition files. -/
structure IsFirstDirectory (t : Tree) (directory : String) (location names : Location) : Prop where
  units : IsUnits directory names
  entry : t.entry? (location ++ names) = some .directory
  first : ∀ other, IsUnits directory other → t.entry? (location ++ other) = some .directory →
    other = names ∨ names.Precedes other

/-- Where a directory is opened, there is a first one, after files only. -/
theorem AreOpened.exists_isFirstDirectory (h : AreOpened t directory location opened)
    (hsome : ∃ names, IsUnits directory names ∧ t.entry? (location ++ names) = some .directory) :
    ∃ before names after, opened = before ++ names :: after ∧
      IsFirstDirectory t directory location names ∧
      ∀ other ∈ before, t.entry? (location ++ other) ≠ some .directory := by
  have hopened (names : Location) (hunits : IsUnits directory names)
      (hentry : t.entry? (location ++ names) = some .directory) : names ∈ opened :=
    (h.mem_iff names).mpr ⟨hunits, by simp [hentry]⟩
  cases hfirst : opened.find? fun names => t.entry? (location ++ names) = some .directory with
  | none =>
    obtain ⟨names, hunits, hentry⟩ := hsome
    have hnone := List.find?_eq_none.mp hfirst names (hopened names hunits hentry)
    simp [hentry] at hnone
  | some names =>
    obtain ⟨hentry, before, after, rfl, hbefore⟩ := List.find?_eq_some_iff_append.mp hfirst
    have hmem : names ∈ before ++ names :: after := by simp
    refine ⟨before, names, after, rfl, ⟨((h.mem_iff names).mp hmem).1, by simpa using hentry, ?_⟩,
      fun other hother => by simpa using hbefore other hother⟩
    intro other hunits hdirectory
    rcases List.mem_append.mp (hopened other hunits hdirectory) with hother | hother
    · simpa [hdirectory] using hbefore other hother
    · rcases List.mem_cons.mp hother with rfl | hafter
      · exact .inl rfl
      · have hlater := (List.pairwise_append.mp h.ordered).2.1
        exact .inr ((List.pairwise_cons.mp hlater).1 other hafter)

/-- A directory below cannot be read as a file. -/
theorem IsFirstDirectory.exists_readFile_error {names : Location}
    (h : IsFirstDirectory t directory location names) (hwell : t.IsWellFormed)
    (hfind : t.find directory = .ok (location, .directory)) :
    ∃ error, t.readFile (Tree.pathBelow directory names) = .error error := by
  have hnames : ∀ name ∈ names, Tree.IsName name := fun name hname =>
    hwell.isName (location ++ names) (by simp [h.entry]) name (List.mem_append_right location hname)
  have hdestination := t.destination_pathBelow_of_find directory location hfind names hnames
  exact t.exists_readFile_error _ (hdestination ▸ h.entry)

end

/-- Requests about a system, by its name, are answered from some systems and the catalog. -/
def Answers (t : Tree) (directory : String) (systems : List Definition) (console now : Console) :
    Prop :=
  ∀ name, ∃ found, Finds systems name found ∧
    (∀ json, runOn (showSystem name directory json) console t =
      runOn (Session.get found >>= showFound json) now t) ∧
    ∀ expression, runOn (dim name expression directory) console t =
      runOn (Session.get found >>= dimFound expression) now t

/-- A workspace that was loaded answers from its systems. -/
theorem answers_of_loadWorkspace (t : Tree) (directory : String) (count : Nat)
    (systems : List Definition) (console now : Console)
    (h : runOn (loadWorkspace directory) console t = ((.ok (count, systems), now), t)) :
    Answers t directory systems console now := by
  intro name
  refine ⟨firstNamed systems name, finds_firstNamed systems name, ?_, ?_⟩
  · intro json
    exact runOn_findSystem directory name count systems console now t h (showFound json)
  · intro expression
    exact runOn_findSystem directory name count systems console now t h (dimFound expression)

/-- Loading a workspace in which all definition files can be read and parsed. Where no directory has
the extension of definition files, it counts these files, gives their systems in the order of a walk
and changes nothing, and a system is shown and evaluated by its name: the first one of the workspace
with this name, else the one of the catalog whose name differs at most in case, else none. Where
there is such a directory, the first one is reported as a file that cannot be read. -/
theorem loadWorkspace_exact (t : Tree) (directory : String) (location : Location)
    (hwell : t.IsWellFormed) (hfind : t.find directory = .ok (location, .directory))
    (hfiles : ∀ names content, IsUnits directory names →
      t.entry? (location ++ names) = some (.file content) →
        ∃ systems, Declares t (Tree.pathBelow directory names) systems)
    (printed logged : String) :
    ∃ files, AreDefinitionFiles t directory location files ∧
      ((∀ names, IsUnits directory names → t.entry? (location ++ names) ≠ some .directory) →
        ∃ systems now,
          List.Forall₂ (fun names => Declares t (Tree.pathBelow directory names)) files systems ∧
          runOn (loadWorkspace directory) ⟨printed, logged⟩ t =
            ((.ok (files.length, systems.flatten), ⟨printed, now⟩), t) ∧
          Answers t directory systems.flatten ⟨printed, logged⟩ ⟨printed, now⟩) ∧
      ((∃ names, IsUnits directory names ∧ t.entry? (location ++ names) = some .directory) →
        ∃ names error now, IsFirstDirectory t directory location names ∧
          t.readFile (Tree.pathBelow directory names) = .error error ∧
          runOn (loadWorkspace directory) ⟨printed, logged⟩ t =
            ((.error (.error (.io (Tree.pathBelow directory names) error.message)),
              ⟨printed, now⟩), t)) := by
  obtain ⟨opened, paths, hopened, hpaths, hload⟩ :=
    runOn_loadWorkspace t directory location hwell hfind
  by_cases hsome : ∃ names, IsUnits directory names ∧
      t.entry? (location ++ names) = some .directory
  · obtain ⟨files, hareFiles⟩ := hopened.exists_areDefinitionFiles
    refine ⟨files, hareFiles, fun hnone => ?_, fun _ => ?_⟩
    · obtain ⟨names, hunits, hentry⟩ := hsome
      exact absurd hentry (hnone names hunits)
    · obtain ⟨before, names, after, rfl, hfirst, hbefore⟩ := hopened.exists_isFirstDirectory hsome
      obtain ⟨error, hread⟩ := hfirst.exists_readFile_error hwell hfind
      obtain ⟨systems, hsystems⟩ := hopened.exists_declares hfiles before fun other hother =>
        ⟨List.mem_append_left _ hother, hbefore other hother⟩
      rw [List.map_append, List.map_cons] at hpaths
      obtain ⟨now, hnow⟩ := runOn_loadVisits_of_unreadable t paths _ _ _ error hpaths systems
        (List.forall₂_map_left_iff.mpr hsystems) hread printed logged
      exact ⟨names, error, now, hfirst, hread,
        (hload ⟨printed, logged⟩).trans (runOn_bind_error _ _ _ _ t t _ hnow)⟩
  · have hnone : ∀ names, IsUnits directory names →
        t.entry? (location ++ names) ≠ some .directory :=
      fun names hunits hentry => hsome ⟨names, hunits, hentry⟩
    refine ⟨opened, hopened.areDefinitionFiles hnone, fun _ => ?_, fun h => absurd h hsome⟩
    obtain ⟨systems, hsystems⟩ := hopened.exists_declares hfiles opened fun names hnames =>
      ⟨hnames, hnone names ((hopened.mem_iff names).mp hnames).1⟩
    obtain ⟨now, hnow⟩ := runOn_loadVisits t paths systems
      (by rw [hpaths]; exact List.forall₂_map_left_iff.mpr hsystems) printed logged
    have hresult := (hload ⟨printed, logged⟩).trans (runOn_bind_ok _ _ _ _ t t _ hnow)
    rw [runOn_log, ← hsystems.length_eq] at hresult
    exact ⟨systems, _, hsystems, hresult, answers_of_loadWorkspace t directory _ _ _ _ hresult⟩

/-- The systems that a file declares, if it can be read and parsed. -/
def declared? (t : Tree) (path : String) : Option (List Definition) :=
  (t.readFile path).toOption.bind fun text =>
    (DefinitionFile.parse text (some path) {}).toOption

/-- A file that can be read and parsed declares systems. -/
theorem exists_declares_of_isSome (t : Tree) (path : String)
    (h : (declared? t path).isSome = true) : ∃ systems, Declares t path systems := by
  obtain ⟨systems, hsystems⟩ := Option.isSome_iff_exists.mp h
  obtain ⟨text, htext, hparse⟩ := Option.bind_eq_some_iff.mp hsystems
  exact ⟨systems, text, eq_ok_of_toOption _ _ htext, eq_ok_of_toOption _ _ hparse⟩

/-- A workspace with definition files at two depths, a directory whose name begins with a dot and a
file that is no text. -/
def workspaceTree : Tree where
  entries := [(["b.units"], .file (.text "system B\nunits M\nsymbols m\nconstants m\n")),
    (["a"], .directory),
    (["a", "c.units"], .file (.text "system C\nunits S\nsymbols s\nconstants s\n")),
    (["a", "notes.txt"], .file (.binary [255])), ([".units"], .directory)]

/-- The systems of this workspace are loaded. -/
theorem loadWorkspace_exact_workspace :
    ∃ files systems now, AreDefinitionFiles workspaceTree "." [] files ∧
      List.Forall₂ (fun names => Declares workspaceTree (Tree.pathBelow "." names))
        files systems ∧
      runOn (loadWorkspace ".") ⟨"", ""⟩ workspaceTree =
        ((.ok (files.length, systems.flatten), ⟨"", now⟩), workspaceTree) ∧
      Answers workspaceTree "." systems.flatten ⟨"", ""⟩ ⟨"", now⟩ := by
  have hloads := workspaceTree.forall_entry
    (fun names entry => IsUnits "." names →
      entry ≠ .directory ∧ (declared? workspaceTree (Tree.pathBelow "." names)).isSome = true)
    (by decide +kernel) (by decide +kernel)
  have hfind : workspaceTree.find "." = .ok ([], .directory) := by decide +kernel
  obtain ⟨files, hfiles, hloaded, -⟩ := loadWorkspace_exact workspaceTree "." []
    ⟨by decide, by decide⟩ hfind (fun names content hunits hentry =>
      exists_declares_of_isSome _ _ (hloads names _ hentry hunits).2) "" ""
  obtain ⟨systems, now, hsystems, hrun, hanswers⟩ := hloaded fun names hunits hentry =>
    (hloads names _ hentry hunits).1 rfl
  exact ⟨files, systems, now, hfiles, hsystems, hrun, hanswers⟩

/-- A run of the program that lists the systems of a workspace. -/
def listRun (directory : String) (t : Tree) : Outcome × Tree :=
  Invocation.run (m := StateM Tree) ⟨false, .list directory⟩ t

/-- A tree that holds nothing but a directory with the extension of definition files. -/
def directoryTree : Tree where
  entries := [(["d.units"], .directory)]

/-- A workspace without any definition file is not loaded when it holds such a directory. -/
theorem loadWorkspace_directory :
    directoryTree.find "." = .ok ([], .directory) ∧
      (∀ names content, directoryTree.entry? names ≠ some (.file content)) ∧
      listRun "." directoryTree = (⟨1, "Loading workspace from ....\n",
        "I/O error on ./d.units: Is a directory (os error 21)\n"⟩, directoryTree) := by
  refine ⟨by decide +kernel, ?_, by decide +kernel⟩
  intro names content hentry
  have hdirectories : ∀ entry ∈ directoryTree.entries, entry.2 = .directory := by decide
  have hnone := directoryTree.forall_entry (fun _ entry => entry = .directory) rfl hdirectories
    names _ hentry
  contradiction

end Command

end UnitSystems
