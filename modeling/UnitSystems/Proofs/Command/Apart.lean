import Mathlib.Data.List.Nodup
import UnitSystems.Proofs.Command.Generate
import UnitSystems.Proofs.Files.Spelling

/-!
# Which generated files are kept apart

Two systems of one file share a file when their paths lead to one location. The check before
writing compares components, and so it sees this only where spelling and location agree: below one
directory, for relative paths without dots. Otherwise the last system that goes to a location
decides what stands there at the end.
-/

namespace UnitSystems

namespace Tree

/-- The location of the file or directory that a path leads to. -/
def location? (t : Tree) (path : String) : Option Location :=
  (t.find path).toOption.map (·.1)

/-- Files that were written are kept apart when each path leads to the text that was written to it
and no two paths lead to one file. -/
structure HoldsApart (t : Tree) (files : List (String × String)) : Prop where
  texts : ∀ file ∈ files, t.readFile file.1 = .ok file.2
  locations : files.Pairwise fun file other => t.location? file.1 ≠ t.location? other.1

/-- Every path that was written leads where its spelling says. -/
theorem WrittenInTurn.location? {t last : Tree} {files : List (String × String)}
    (h : WrittenInTurn t files last) (file : String × String) (hfile : file ∈ files) :
    last.location? file.1 = some (t.destination file.1) := by
  obtain ⟨path, text⟩ := file
  obtain ⟨before, after, hfiles⟩ := List.append_of_mem hfile
  obtain ⟨now, hnow, -⟩ := h.find_of_eq_append before after path text hfiles
  rw [Tree.location?, hnow]
  rfl

/-- A path reads as the text that was written to it if no later one goes to the same location. -/
theorem WrittenInTurn.readFile_of_eq_append {t last : Tree} {files : List (String × String)}
    (h : WrittenInTurn t files last) (before after : List (String × String)) (path text : String)
    (hfiles : files = before ++ (path, text) :: after)
    (hafter : ∀ file ∈ after, t.destination file.1 ≠ t.destination path) :
    last.readFile path = .ok text := by
  obtain ⟨now, hnow, htext⟩ := h.find_of_eq_append before after path text hfiles
  rw [htext hafter] at hnow
  exact last.readFile_of_find path text _ hnow

/-- Files are kept apart exactly when their paths lead to different locations. -/
theorem WrittenInTurn.holdsApart_iff {t last : Tree} {files : List (String × String)}
    (h : WrittenInTurn t files last) :
    last.HoldsApart files ↔ (files.map fun file => t.destination file.1).Nodup := by
  have hlocations :
      files.Pairwise (fun file other => last.location? file.1 ≠ last.location? other.1) ↔
        (files.map fun file => t.destination file.1).Nodup := by
    rw [List.Nodup, List.pairwise_map]
    refine List.Pairwise.iff_of_mem fun {file other} hfile hother => ?_
    rw [h.location? file hfile, h.location? other hother, ne_eq, ne_eq, Option.some.injEq]
  refine ⟨fun hapart => hlocations.mp hapart.locations, fun hnodup => ⟨?_, hlocations.mpr hnodup⟩⟩
  rintro ⟨path, text⟩ hfile
  obtain ⟨before, after, hfiles⟩ := List.append_of_mem hfile
  refine h.readFile_of_eq_append before after path text hfiles fun other hother heq => ?_
  rw [hfiles, List.map_append, List.map_cons] at hnodup
  have hfresh := (List.nodup_cons.mp (List.nodup_append.mp hnodup).2.1).1
  exact hfresh (heq ▸ List.mem_map_of_mem hother)

end Tree

namespace Command

/-- A run that ends well wrote the files of systems that can be generated together. -/
theorem writtenInTurn_generateRun (verbose docs : Bool) (file : String)
    (out runtime : Option String) (t : Tree)
    (h : (generateRun verbose file out runtime docs t).1.code = 0) :
    ∃ definitions files, Declares t file definitions ∧
      Accepted {} (outputDirectory file out) definitions ∧
      AreFilesOf (generatorFor runtime docs) (outputDirectory file out) definitions files ∧
      (generateRun verbose file out runtime docs t).1.output =
        reportLines (outputDirectory file out) definitions ∧
      Tree.WrittenInTurn t files (generateRun verbose file out runtime docs t).2 := by
  have hrefused : ¬Refused {} (outputDirectory file out) t file := by
    intro hrefused
    rw [(generateRun_of_refused verbose docs file out runtime t hrefused).1] at h
    cases h
  obtain ⟨definitions, files, hfile, hfiles, hrun⟩ :=
    generateRun_of_not_refused verbose docs file out runtime t hrefused
  obtain ⟨others, hothers, -, haccepted⟩ := exists_accepted_of_not_refused hrefused
  obtain rfl := hfile.unique hothers
  refine ⟨definitions, files, hfile, haccepted, hfiles, ?_⟩
  rcases hwrite : Tree.writeFiles files t with ⟨result, last⟩
  rw [hwrite] at hrun
  cases result with
  | ok _ =>
    obtain ⟨-, houtput, hlast⟩ := hrun
    exact ⟨houtput, hlast ▸ Tree.writtenInTurn_writeFiles t last files hwrite⟩
  | error failure =>
    rw [hrun] at h
    cases h

/-- Systems that can be generated together go to different locations if their targets are relative
paths without dots. -/
theorem nodup_destinations (limits : Limits) (directory : String) (definitions : List Definition)
    (h : Accepted limits directory definitions)
    (hplain : ∀ d ∈ definitions, Tree.IsPlain d.outputTarget) (t : Tree) :
    (definitions.map fun d => t.destination (Path.join directory d.outputTarget)).Nodup := by
  have htargets := h.targets
  rw [List.Nodup, List.pairwise_map] at htargets ⊢
  refine htargets.imp_of_mem fun {d other} hd hother hne heq => hne ?_
  exact t.components_join_of_destination_eq directory d.outputTarget other.outputTarget
    (hplain d hd) (hplain other hother) heq

/-- The systems of a run that ends well are kept apart exactly when their paths lead to different
locations, which holds whenever their targets are relative paths without dots. In any case a path
reads, at the end, as the text of its system if no later system goes to the same location. -/
theorem generate_holdsApart_iff (verbose docs : Bool) (file : String) (out runtime : Option String)
    (t : Tree) (h : (generateRun verbose file out runtime docs t).1.code = 0) :
    ∃ definitions files, Declares t file definitions ∧
      AreFilesOf (generatorFor runtime docs) (outputDirectory file out) definitions files ∧
      (generateRun verbose file out runtime docs t).1.output =
        reportLines (outputDirectory file out) definitions ∧
      ((generateRun verbose file out runtime docs t).2.HoldsApart files ↔
        (definitions.map fun d =>
          t.destination (Path.join (outputDirectory file out) d.outputTarget)).Nodup) ∧
      ((∀ d ∈ definitions, Tree.IsPlain d.outputTarget) →
        (generateRun verbose file out runtime docs t).2.HoldsApart files) ∧
      ∀ before after path text, files = before ++ (path, text) :: after →
        (∀ other ∈ after, t.destination other.1 ≠ t.destination path) →
        (generateRun verbose file out runtime docs t).2.readFile path = .ok text := by
  obtain ⟨definitions, files, hfile, haccepted, hfiles, houtput, hwritten⟩ :=
    writtenInTurn_generateRun verbose docs file out runtime t h
  have hdestinations : (files.map fun file => t.destination file.1) = definitions.map fun d =>
      t.destination (Path.join (outputDirectory file out) d.outputTarget) := by
    have hpaths := congrArg (List.map t.destination) hfiles.1
    rwa [List.map_map, List.map_map] at hpaths
  have hiff := hwritten.holdsApart_iff
  rw [hdestinations] at hiff
  refine ⟨definitions, files, hfile, hfiles, houtput, hiff, fun hplain => ?_, ?_⟩
  · exact hiff.mpr (nodup_destinations {} _ definitions haccepted hplain t)
  · exact hwritten.readFile_of_eq_append

/-- The two systems with plain targets are kept apart. -/
theorem generate_holdsApart_iff_pair :
    (generateRun false "in/s.units" none none false (treeWith pairText)).1.code = 0 ∧
      ∃ definitions files, Declares (treeWith pairText) "in/s.units" definitions ∧
        AreFilesOf (generatorFor none false) "in" definitions files ∧
        (generateRun false "in/s.units" none none false (treeWith pairText)).2.HoldsApart files := by
  have hcode :
      (generateRun false "in/s.units" none none false (treeWith pairText)).1.code = 0 := by
    decide +kernel
  have hdirectory : outputDirectory "in/s.units" none = "in" := by decide +kernel
  have hread : (treeWith pairText).readFile "in/s.units" = .ok pairText :=
    eq_ok_of_toOption _ _ (by decide +kernel)
  have hplain : (DefinitionFile.parse pairText (some "in/s.units") {}).toOption.all
      (fun definitions => definitions.all fun d => decide (Tree.IsPlain d.outputTarget)) =
        true := by
    decide +kernel
  obtain ⟨definitions, files, ⟨text, htext, hparse⟩, hfiles, -, -, hapart, -⟩ :=
    generate_holdsApart_iff false false "in/s.units" none none (treeWith pairText) hcode
  obtain rfl := Except.ok.inj (hread.symm.trans htext)
  rw [hdirectory] at hfiles
  refine ⟨hcode, definitions, files, ⟨_, htext, hparse⟩, hfiles, hapart fun d hd => ?_⟩
  rw [hparse] at hplain
  exact of_decide_eq_true (List.all_eq_true.mp hplain d hd)

/-- Two systems whose targets differ in two dots. -/
def sharedText : String :=
  "system A\nunits M\nsymbols m\nconstants m\n" ++
    "system B\noutput \"../in/a.rs\"\nunits S\nsymbols s\nconstants s\n"

/-- A run that ends well can write two systems to one file. -/
theorem generate_shared_location :
    (generateRun false "in/s.units" none none false (treeWith sharedText)).1.code = 0 ∧
      (generateRun false "in/s.units" none none false (treeWith sharedText)).1.output =
        "Generated A -> in/a.rs\nGenerated B -> in/../in/a.rs\n" ∧
      (generateRun false "in/s.units" none none false (treeWith sharedText)).2.location?
        "in/a.rs" = some ["in", "a.rs"] ∧
      (generateRun false "in/s.units" none none false (treeWith sharedText)).2.location?
        "in/../in/a.rs" = some ["in", "a.rs"] := by
  decide +kernel

end Command

end UnitSystems
