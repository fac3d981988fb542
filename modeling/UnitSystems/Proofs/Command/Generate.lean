import UnitSystems.Proofs.Command.Running

/-!
# Generating all systems of a file

A definition file is refused before anything is written, and then the file tree stays as it was, or
all of its systems are written in the order in which the file declares them. Which of the two
happens is decided by the file alone: the tree only decides whether the file can be read and
whether the operating system lets the files be written.
-/

namespace UnitSystems.Command

/-- A run of the program that generates the systems of a definition file. -/
def generateRun (verbose : Bool) (file : String) (out runtime : Option String) (docs : Bool)
    (t : Tree) : Outcome × Tree :=
  Invocation.run (m := StateM Tree) ⟨verbose, .generate file out runtime docs⟩ t

/-- The directory that generated files go to: the one that is asked for, else the one of the
definition file. -/
def outputDirectory (file : String) (out : Option String) : String :=
  out.getD ((Path.parent? file).getD "")

/-- A file that can be read and holds definitions. -/
def Declares (t : Tree) (file : String) (definitions : List Definition) : Prop :=
  ∃ text, t.readFile file = .ok text ∧
    DefinitionFile.parse text (some file) {} = .ok definitions

/-- Reasons to refuse a definition file before anything is written. -/
inductive Refused (limits : Limits) (directory : String) (t : Tree) (file : String) : Prop
  /-- The file cannot be read. -/
  | unreadable (error : FileError) (h : t.readFile file = .error error)
  /-- The text is no definition file. -/
  | unparsed (text : String) (error : Error) (htext : t.readFile file = .ok text)
      (h : DefinitionFile.parse text (some file) {} = .error error)
  /-- There is no system in the file. -/
  | noSystem (h : Declares t file [])
  /-- A system is not valid. -/
  | invalid (definitions : List Definition) (hfile : Declares t file definitions)
      (d : Definition) (hd : d ∈ definitions) (error : Error) (h : d.validate limits = .error error)
  /-- Two systems have one name. -/
  | repeatedName (definitions : List Definition) (hfile : Declares t file definitions)
      (h : ¬(definitions.map (·.name)).Nodup)
  /-- The files of two systems have one path. -/
  | sharedTarget (definitions : List Definition) (hfile : Declares t file definitions)
      (h : ¬(definitions.map (targetComponents directory)).Nodup)

/-- A file declares one list of systems. -/
theorem Declares.unique {t : Tree} {file : String} {definitions others : List Definition}
    (h : Declares t file definitions) (hothers : Declares t file others) :
    definitions = others := by
  obtain ⟨text, htext, hparse⟩ := h
  obtain ⟨text', htext', hparse'⟩ := hothers
  obtain rfl := Except.ok.inj (htext.symm.trans htext')
  exact Except.ok.inj (hparse.symm.trans hparse')

/-- The systems of a refused file cannot be generated together. -/
theorem Refused.not_accepted {limits : Limits} {directory file : String} {t : Tree}
    (h : Refused limits directory t file) {definitions : List Definition}
    (hfile : Declares t file definitions) (hne : definitions ≠ []) :
    ¬Accepted limits directory definitions := by
  intro haccepted
  cases h with
  | unreadable error hread =>
    obtain ⟨text, htext, -⟩ := hfile
    exact absurd (hread.symm.trans htext) (by simp)
  | unparsed text error htext hparse =>
    obtain ⟨text', htext', hparse'⟩ := hfile
    obtain rfl := Except.ok.inj (htext.symm.trans htext')
    exact absurd (hparse.symm.trans hparse') (by simp)
  | noSystem hnone => exact hne (hfile.unique hnone)
  | invalid others hothers d hd error hinvalid =>
    obtain rfl := hfile.unique hothers
    obtain ⟨s, hs⟩ := haccepted.valid d hd
    exact absurd (hs.symm.trans hinvalid) (by simp)
  | repeatedName others hothers hnames =>
    obtain rfl := hfile.unique hothers
    exact hnames haccepted.names
  | sharedTarget others hothers htargets =>
    obtain rfl := hfile.unique hothers
    exact htargets haccepted.targets

/-- A file that is not refused declares systems that can be generated together. -/
theorem exists_accepted_of_not_refused {limits : Limits} {directory file : String} {t : Tree}
    (h : ¬Refused limits directory t file) :
    ∃ definitions, Declares t file definitions ∧ definitions ≠ [] ∧
      Accepted limits directory definitions := by
  cases hread : t.readFile file with
  | error error => exact absurd (.unreadable error hread) h
  | ok text =>
    cases hparse : DefinitionFile.parse text (some file) {} with
    | error error => exact absurd (.unparsed text error hread hparse) h
    | ok definitions =>
      have hfile : Declares t file definitions := ⟨text, hread, hparse⟩
      refine ⟨definitions, hfile, fun hnil => h (.noSystem (hnil ▸ hfile)), ?_⟩
      refine ⟨fun d hd => ?_, ?_, ?_⟩
      · cases hvalid : d.validate limits with
        | ok s => exact ⟨s, rfl⟩
        | error error => exact absurd (.invalid definitions hfile d hd error hvalid) h
      · by_contra hnames
        exact h (.repeatedName definitions hfile hnames)
      · by_contra htargets
        exact h (.sharedTarget definitions hfile htargets)

section

variable (verbose docs : Bool) (file : String) (out runtime : Option String) (t : Tree)

/-- A run that ends leaves what its session printed, and the tree. -/
theorem generateRun_of_ok (now : Console) (last : Tree)
    (h : runOn (generate file out runtime docs) {} t = ((.ok (), now), last)) :
    (generateRun verbose file out runtime docs t).1.code = 0 ∧
      (generateRun verbose file out runtime docs t).1.output = now.printed ∧
      (generateRun verbose file out runtime docs t).2 = last := by
  have hrun : generateRun verbose file out runtime docs t =
      (⟨0, now.printed, if verbose then now.logged else ""⟩, last) := by
    simp only [generateRun, Invocation.run, bind, StateT.bind]
    rw [show ((Task.generate file out runtime docs).run (m := StateM Tree)).run.run {} t =
      ((.ok (), now), last) from h]
    rfl
  rw [hrun]
  exact ⟨rfl, rfl, rfl⟩

/-- A run whose session fails reports the failure. -/
theorem generateRun_eq_of_error (failure : Failure) (now : Console) (last : Tree)
    (h : runOn (generate file out runtime docs) {} t = ((.error failure, now), last)) :
    generateRun verbose file out runtime docs t =
      (⟨1, now.printed, (if verbose then now.logged else "") ++ failure.text⟩, last) := by
  simp only [generateRun, Invocation.run, bind, StateT.bind]
  rw [show ((Task.generate file out runtime docs).run (m := StateM Tree)).run.run {} t =
    ((.error failure, now), last) from h]
  rfl

/-- A run whose session fails leaves the tree of the session. -/
theorem generateRun_of_error (failure : Failure) (now : Console) (last : Tree)
    (h : runOn (generate file out runtime docs) {} t = ((.error failure, now), last)) :
    (generateRun verbose file out runtime docs t).1.code = 1 ∧
      (generateRun verbose file out runtime docs t).2 = last := by
  rw [generateRun_eq_of_error verbose docs file out runtime t failure now last h]
  exact ⟨rfl, rfl⟩

/-- A session that cannot load the file fails and leaves the tree alone. -/
theorem runOn_generate_of_loadFile (failure : Failure) (now : Console)
    (h : runOn (loadFile file) {} t = ((.error failure, now), t)) :
    runOn (generate file out runtime docs) {} t = ((.error failure, now), t) :=
  runOn_bind_error _ _ _ _ t t failure h

/-- A session goes on with the systems of the file. -/
theorem runOn_generate_of_declares (definitions : List Definition)
    (h : Declares t file definitions) :
    ∃ logged, runOn (generate file out runtime docs) {} t =
      if definitions = [] then
        ((.error (.other ("no unit systems found in " ++ file)), ⟨"", logged⟩), t)
      else runOn (do
        let specifications ← Session.get (checkSystems (generatorFor runtime docs) file
          (outputDirectory file out) definitions)
        let written ← writeSystems (generatorFor runtime docs) (outputDirectory file out)
          specifications
        Session.print (Report.generated written)) ⟨"", logged⟩ t := by
  obtain ⟨text, hread, hparse⟩ := h
  obtain ⟨logged, hload⟩ := runOn_loadFile file text "" "" t definitions hread hparse
  refine ⟨logged, (runOn_bind_ok _ _ _ _ t t definitions hload).trans ?_⟩
  cases definitions with
  | nil => exact runOn_bind_error _ _ _ _ t t _ rfl
  | cons d definitions => rfl

/-- A refused file leaves the tree alone. -/
theorem generateRun_of_refused (h : Refused {} (outputDirectory file out) t file) :
    (generateRun verbose file out runtime docs t).1.code = 1 ∧
      (generateRun verbose file out runtime docs t).2 = t := by
  have hnone (definitions : List Definition) (hfile : Declares t file definitions) :
      (generateRun verbose file out runtime docs t).1.code = 1 ∧
        (generateRun verbose file out runtime docs t).2 = t := by
    obtain ⟨logged, hrun⟩ := runOn_generate_of_declares docs file out runtime t definitions hfile
    by_cases hnil : definitions = []
    · rw [if_pos hnil] at hrun
      exact generateRun_of_error verbose docs file out runtime t _ _ t hrun
    · rw [if_neg hnil] at hrun
      obtain ⟨error, herror⟩ := checkSystems_of_not_accepted (generatorFor runtime docs) file
        (outputDirectory file out) definitions (h.not_accepted hfile hnil)
      exact generateRun_of_error verbose docs file out runtime t _ _ t
        (hrun.trans (runOn_get_error _ _ _ t error herror))
  cases h with
  | unreadable error hread =>
    exact generateRun_of_error verbose docs file out runtime t _ _ t
      (runOn_generate_of_loadFile docs file out runtime t _ _
        (runOn_loadFile_of_unreadable file {} t error hread))
  | unparsed text error hread hparse =>
    exact generateRun_of_error verbose docs file out runtime t _ _ t
      (runOn_generate_of_loadFile docs file out runtime t _ _
        (runOn_loadFile_of_unparsed file text {} t error hread hparse))
  | noSystem hfile => exact hnone [] hfile
  | invalid definitions hfile => exact hnone definitions hfile
  | repeatedName definitions hfile => exact hnone definitions hfile
  | sharedTarget definitions hfile => exact hnone definitions hfile

/-- The lines that report the files of systems. -/
def reportLines (directory : String) (definitions : List Definition) : String :=
  String.join (definitions.map fun d =>
    "Generated " ++ d.name ++ " -> " ++ Path.join directory d.outputTarget ++ "\n")

/-- The files that systems are generated to: each goes to the target of its system under the
directory and holds the text that is generated from its definition. -/
def AreFilesOf (g : Generator) (directory : String) (definitions : List Definition)
    (files : List (String × String)) : Prop :=
  files.map (·.1) = definitions.map (fun d => Path.join directory d.outputTarget) ∧
    files.map (fun file => .ok file.2) = definitions.map g.generate

/-- The files of valid systems, and the report about them. -/
theorem areFilesOf_filesOf (g : Generator) (directory : String) (definitions : List Definition)
    (specifications : List Specification)
    (h : definitions.map (·.validate g.limits) = specifications.map .ok) :
    AreFilesOf g directory definitions (filesOf g directory specifications) ∧
      Report.generated (specifications.map fun s => (s.name, Generator.target s directory)) =
        reportLines directory definitions := by
  induction definitions generalizing specifications with
  | nil =>
    obtain rfl := List.map_eq_nil_iff.mp h.symm
    exact ⟨⟨rfl, rfl⟩, rfl⟩
  | cons d definitions ih =>
    cases specifications with
    | nil => cases h
    | cons s specifications =>
      obtain ⟨hfirst, hrest⟩ := List.cons.inj h
      have hd : d.validate g.limits = .ok s := hfirst
      obtain ⟨⟨hpaths, htexts⟩, hlines⟩ := ih specifications hrest
      have htarget := d.target_of_validate g.limits s hd directory
      have hname := d.name_of_validate g.limits s hd
      have htext : g.generate d = .ok (Generated.file s g.options) := by
        rw [Generator.generate, hd]
        rfl
      unfold filesOf at hpaths htexts ⊢
      refine ⟨⟨?_, ?_⟩, ?_⟩
      · rw [List.map_cons, List.map_cons, List.map_cons, hpaths, htarget]
      · rw [List.map_cons, List.map_cons, List.map_cons, htexts, htext]
      · unfold Report.generated reportLines at hlines ⊢
        rw [List.map_cons, List.map_cons, List.map_cons, String.join_cons, String.join_cons, hlines,
          hname, htarget]

/-- A file that is not refused is generated as a whole unless a file cannot be written. -/
theorem generateRun_of_not_refused (h : ¬Refused {} (outputDirectory file out) t file) :
    ∃ definitions files, Declares t file definitions ∧
      AreFilesOf (generatorFor runtime docs) (outputDirectory file out) definitions files ∧
      match Tree.writeFiles files t with
      | (.ok (), last) =>
        (generateRun verbose file out runtime docs t).1.code = 0 ∧
          (generateRun verbose file out runtime docs t).1.output =
            reportLines (outputDirectory file out) definitions ∧
          (generateRun verbose file out runtime docs t).2 = last
      | (.error _, _) => (generateRun verbose file out runtime docs t).1.code = 1 := by
  obtain ⟨definitions, hfile, hne, haccepted⟩ := exists_accepted_of_not_refused h
  obtain ⟨specifications, hspecifications, hvalid⟩ := checkSystems_of_accepted
    (generatorFor runtime docs) file (outputDirectory file out) definitions haccepted
  obtain ⟨hfiles, hreport⟩ := areFilesOf_filesOf (generatorFor runtime docs)
    (outputDirectory file out) definitions specifications hvalid
  refine ⟨definitions, _, hfile, hfiles, ?_⟩
  obtain ⟨logged, hrun⟩ := runOn_generate_of_declares docs file out runtime t definitions hfile
  rw [if_neg hne, runOn_get_ok _ _ _ t specifications hspecifications] at hrun
  obtain ⟨now, hwritten⟩ := runOn_writeSystems (generatorFor runtime docs)
    (outputDirectory file out) specifications "" logged t
  split at hwritten
  · next last hwrite =>
    rw [runOn_bind_ok _ _ _ _ t last _ hwritten] at hrun
    rw [hwrite, ← hreport]
    have hend := generateRun_of_ok verbose docs file out runtime t _ _ hrun
    simpa using hend
  · next path error last hwrite =>
    rw [runOn_bind_error _ _ _ _ t last _ hwritten] at hrun
    rw [hwrite]
    exact (generateRun_of_error verbose docs file out runtime t _ _ last hrun).1

end

/-- A definition file is generated as a whole or not at all. A refused file ends the run with a
failure and leaves the tree as it was. Every other file declares systems whose files are written in
the order of the systems: when all of them can be written, the run ends well, exactly one line is
printed for each system, and each path led to the text of its system when that was written. -/
theorem generate_all_or_nothing (verbose docs : Bool) (file : String) (out runtime : Option String)
    (t : Tree) :
    (Refused {} (outputDirectory file out) t file →
      (generateRun verbose file out runtime docs t).1.code = 1 ∧
        (generateRun verbose file out runtime docs t).2 = t) ∧
    (¬Refused {} (outputDirectory file out) t file →
      ∃ definitions files, Declares t file definitions ∧
        AreFilesOf (generatorFor runtime docs) (outputDirectory file out) definitions files ∧
        ((Tree.writeFiles files t).1 = .ok () →
          (generateRun verbose file out runtime docs t).1.code = 0 ∧
            (generateRun verbose file out runtime docs t).1.output =
              reportLines (outputDirectory file out) definitions ∧
            Tree.WrittenInTurn t files (generateRun verbose file out runtime docs t).2) ∧
        (∀ failure, (Tree.writeFiles files t).1 = .error failure →
          (generateRun verbose file out runtime docs t).1.code = 1)) := by
  refine ⟨generateRun_of_refused verbose docs file out runtime t, fun h => ?_⟩
  obtain ⟨definitions, files, hfile, hfiles, hrun⟩ :=
    generateRun_of_not_refused verbose docs file out runtime t h
  refine ⟨definitions, files, hfile, hfiles, ?_⟩
  rcases hwrite : Tree.writeFiles files t with ⟨result, last⟩
  rw [hwrite] at hrun
  cases result with
  | ok _ =>
    obtain ⟨hcode, houtput, hlast⟩ := hrun
    have hwritten := hlast ▸ Tree.writtenInTurn_writeFiles t last files hwrite
    exact ⟨fun _ => ⟨hcode, houtput, hwritten⟩, fun failure hfailure => nomatch hfailure⟩
  | error failure => exact ⟨fun hok => (nomatch hok), fun _ _ => hrun⟩

/-- A tree with a definition file in a directory. -/
def treeWith (text : String) : Tree where
  entries := [(["in"], .directory), (["in", "s.units"], .file (.text text))]

/-- Two systems, one of which goes to a directory that is not there yet. -/
def pairText : String :=
  "system A\nunits M\nsymbols m\nconstants m\n" ++
    "system B\noutput \"deep/b.rs\"\nunits S\nsymbols s\nconstants s\n"

/-- A valid system before one that has no symbol for its unit. -/
def brokenText : String :=
  "system A\nunits M\nsymbols m\nconstants m\nsystem B\nunits S\nconstants s\n"

/-- Two systems are written in turn, and a system that is not valid keeps the one before it from
being written. -/
theorem generate_all_or_nothing_pair :
    (∃ definitions files, Declares (treeWith pairText) "in/s.units" definitions ∧
      AreFilesOf (generatorFor none false) "in" definitions files ∧
      Tree.WrittenInTurn (treeWith pairText) files
        (generateRun false "in/s.units" none none false (treeWith pairText)).2) ∧
    Refused {} "in" (treeWith brokenText) "in/s.units" ∧
      (generateRun false "in/s.units" none none false (treeWith brokenText)).2 =
        treeWith brokenText := by
  obtain ⟨hrefused, hwritten⟩ :=
    generate_all_or_nothing false false "in/s.units" none none (treeWith pairText)
  obtain ⟨hunchanged, -⟩ :=
    generate_all_or_nothing false false "in/s.units" none none (treeWith brokenText)
  have hcode : (generateRun false "in/s.units" none none false (treeWith pairText)).1.code = 0 := by
    decide +kernel
  have hdirectory : outputDirectory "in/s.units" none = "in" := by decide +kernel
  have hread : (treeWith brokenText).readFile "in/s.units" = .ok brokenText :=
    eq_ok_of_toOption _ _ (by decide +kernel)
  have hinvalid : (DefinitionFile.parse brokenText (some "in/s.units") {}).toOption.any
      (fun definitions => definitions.any fun d => (d.validate {}).toOption.isNone) = true := by
    decide +kernel
  have hbroken : Refused {} "in" (treeWith brokenText) "in/s.units" := by
    cases hparse : DefinitionFile.parse brokenText (some "in/s.units") {} with
    | error error => exact .unparsed brokenText error hread hparse
    | ok definitions =>
      rw [hparse] at hinvalid
      obtain ⟨d, hd, hnone⟩ := List.any_eq_true.mp hinvalid
      cases hvalid : d.validate {} with
      | ok s =>
        rw [hvalid] at hnone
        cases hnone
      | error error => exact .invalid definitions ⟨brokenText, hread, hparse⟩ d hd error hvalid
  rw [hdirectory] at hrefused hwritten hunchanged
  refine ⟨?_, hbroken, (hunchanged hbroken).2⟩
  obtain ⟨definitions, files, hfile, hfiles, hok, herror⟩ := hwritten fun h => by
    rw [(hrefused h).1] at hcode
    cases hcode
  refine ⟨definitions, files, hfile, hfiles, ?_⟩
  cases hwrite : (Tree.writeFiles files (treeWith pairText)).1 with
  | ok _ => exact (hok hwrite).2.2
  | error failure =>
    rw [herror failure hwrite] at hcode
    cases hcode

end UnitSystems.Command
