import UnitSystems.Proofs.Command.Generate
import UnitSystems.Proofs.Error

/-!
# What a refused file is refused for

A definition file is refused for everything that is wrong with its systems, system by system in the
order of the file. A system is at fault for a name that an earlier one has, and for whatever makes
it invalid or, if it is valid, for the path of an earlier valid system. Opening the error of the run
gives exactly these faults, and its report reports each of them in this order.
-/

namespace UnitSystems.Command

/-- The last valid one of some systems whose file goes where that of a system goes. -/
def targetHolder? (limits : Limits) (directory : String) (earlier : List Definition)
    (d : Definition) : Option Definition :=
  (earlier.filter fun other => (other.validate limits).isOk &&
    targetComponents directory other == targetComponents directory d).getLast?

/-- What is wrong with the name of a system that stands behind some others. -/
def nameFaults (file : String) (earlier : List Definition) (d : Definition) : List Error :=
  if d.name ∈ earlier.map (·.name) then [Survey.repeatedName file d] else []

/-- What is wrong with the path of a valid system that stands behind some others. -/
def targetFaults (limits : Limits) (directory : String) (earlier : List Definition)
    (d : Definition) : List Error :=
  match targetHolder? limits directory earlier d with
  | some previous => [Survey.sharedTarget previous.name d (Path.join directory d.outputTarget)]
  | none => []

/-- What is wrong with a system that stands behind some others in its file. -/
def faultsAfter (limits : Limits) (file directory : String) (earlier : List Definition)
    (d : Definition) : List Error :=
  nameFaults file earlier d ++
    match d.validate limits with
    | .error error => error.leaves
    | .ok _ => targetFaults limits directory earlier d

/-- What is wrong with the systems of a file, after those that stand before them. -/
def faults (limits : Limits) (file directory : String) (earlier : List Definition) :
    List Definition → List Error
  | [] => []
  | d :: later =>
    faultsAfter limits file directory earlier d ++
      faults limits file directory (earlier ++ [d]) later

namespace Survey

variable (g : Generator) (file directory : String)

/-- What a survey has seen: the names of the systems and, of the valid ones, where their files go,
the last one first. -/
structure Describes (survey : Survey) (earlier : List Definition) : Prop where
  names : survey.names = (earlier.map (·.name)).reverse
  targets : survey.targets = ((earlier.filter fun other => (other.validate g.limits).isOk).map
    fun other => (targetComponents directory other, other.name)).reverse

/-- Looking a key up in a reversed list of pairs finds the last of its values. -/
theorem lookup_reverse_map {α β γ : Type} [BEq β] (key : β) (f : α → β) (g : α → γ)
    (list : List α) : (list.map fun a => (f a, g a)).reverse.lookup key =
      ((list.filter fun a => key == f a).getLast?).map g := by
  induction list using List.reverseRecOn with
  | nil => rfl
  | append_singleton list a ih =>
    rw [List.map_append, List.map_singleton, List.reverse_append, List.reverse_singleton,
      List.singleton_append, List.lookup_cons, List.filter_append, List.filter_singleton]
    cases key == f a with
    | false => simpa using ih
    | true => simp

/-- The survey finds the last valid system for a path. -/
theorem Describes.lookup (survey : Survey) (earlier : List Definition)
    (h : survey.Describes g directory earlier) (d : Definition) :
    survey.targets.lookup (targetComponents directory d) =
      (targetHolder? g.limits directory earlier d).map (·.name) := by
  rw [h.targets, lookup_reverse_map, List.filter_filter, targetHolder?]
  congr 2
  refine List.filter_congr fun other _ => ?_
  rw [Bool.and_comm, BEq.comm]

/-- A survey finds the name of a system among those that it has seen. -/
theorem Describes.nameErrors (survey : Survey) (earlier : List Definition)
    (h : survey.Describes g directory earlier) (d : Definition) :
    survey.nameErrors file d = nameFaults file earlier d := by
  rw [Survey.nameErrors, nameFaults, h.names]
  simp only [List.contains_iff_mem, List.mem_reverse]

/-- A survey finds the path of a valid system among those of the valid systems that it has seen. -/
theorem Describes.targetErrors (survey : Survey) (earlier : List Definition)
    (h : survey.Describes g directory earlier) (d : Definition) (s : Specification)
    (hs : d.validate g.limits = .ok s) :
    survey.targetErrors directory d s = targetFaults g.limits directory earlier d := by
  have hlookup := h.lookup g directory survey earlier d
  rw [targetComponents] at hlookup
  simp only [Survey.targetErrors, d.target_of_validate g.limits s hs, hlookup, targetFaults]
  cases targetHolder? g.limits directory earlier d <;> rfl

/-- A name that is wrong is a single error. -/
theorem leaves_nameFaults (earlier : List Definition) (d : Definition) :
    (nameFaults file earlier d).flatMap Error.leaves = nameFaults file earlier d := by
  unfold nameFaults
  split <;> rfl

/-- A path that is wrong is a single error. -/
theorem leaves_targetFaults (earlier : List Definition) (d : Definition) :
    (targetFaults g.limits directory earlier d).flatMap Error.leaves =
      targetFaults g.limits directory earlier d := by
  unfold targetFaults
  split <;> rfl

/-- One more system adds what is wrong with it, and the survey has seen it. -/
theorem Describes.add (survey : Survey) (earlier : List Definition)
    (h : survey.Describes g directory earlier) (d : Definition) :
    (survey.add g file directory d).Describes g directory (earlier ++ [d]) ∧
      (survey.add g file directory d).errors.flatMap Error.leaves =
        survey.errors.flatMap Error.leaves ++
          faultsAfter g.limits file directory earlier d := by
  have hname := h.nameErrors g file directory survey earlier d
  unfold Survey.add faultsAfter
  cases hvalid : d.validate g.limits with
  | error error =>
    refine ⟨⟨?_, ?_⟩, ?_⟩
    · simp [h.names]
    · simp [h.targets, List.filter_append, hvalid, Except.isOk, Except.toBool]
    · simp only [List.flatMap_append, hname, leaves_nameFaults, List.flatMap_singleton,
        List.append_assoc]
  | ok s =>
    have htarget := h.targetErrors g directory survey earlier d s hvalid
    refine ⟨⟨?_, ?_⟩, ?_⟩
    · simp [h.names]
    · simp [h.targets, List.filter_append, hvalid, Except.isOk, Except.toBool, targetComponents,
        d.target_of_validate g.limits s hvalid]
    · simp only [List.flatMap_append, hname, leaves_nameFaults, htarget, leaves_targetFaults,
        List.append_assoc]

/-- The survey of systems adds what is wrong with them. -/
theorem Describes.leaves_foldl (survey : Survey) (earlier definitions : List Definition)
    (h : survey.Describes g directory earlier) :
    (definitions.foldl (Survey.add g file directory) survey).errors.flatMap Error.leaves =
      survey.errors.flatMap Error.leaves ++
        faults g.limits file directory earlier definitions := by
  induction definitions generalizing survey earlier with
  | nil => rw [List.foldl_nil, faults, List.append_nil]
  | cons d definitions ih =>
    obtain ⟨hseen, hleaves⟩ := h.add g file directory survey earlier d
    rw [List.foldl_cons, ih _ _ hseen, hleaves, faults, List.append_assoc]

end Survey

/-- The error of a file whose systems cannot be generated together opens to what is wrong with each
of them. -/
theorem leaves_of_checkSystems (g : Generator) (file directory : String)
    (definitions : List Definition) (error : Error)
    (h : checkSystems g file directory definitions = .error error) :
    error.leaves = faults g.limits file directory [] definitions := by
  have hleaves := Survey.Describes.leaves_foldl g file directory {} [] definitions ⟨rfl, rfl⟩
  unfold checkSystems at h
  dsimp only at h
  split at h
  · next found hcollect =>
    obtain rfl := Except.error.inj h
    rw [Error.leaves_of_collect _ _ hcollect, hleaves]
    rfl
  · cases h

/-- No error is lost, repeated or reordered. Collected errors have the single errors of each of
them, one after the other. A definition file that declares systems and is refused is refused with an
error that opens to what is wrong with each system, in the order of the file, and what is printed is
made of the reports of these single errors in their order. -/
theorem errors_aggregated :
    (∀ errors : List Error, (Error.collect errors = none ↔ errors = []) ∧
      ∀ error, Error.collect errors = some error →
        error.leaves = errors.flatMap Error.leaves) ∧
    ∀ (verbose docs : Bool) (file : String) (out runtime : Option String) (t : Tree)
      (definitions : List Definition), Declares t file definitions → definitions ≠ [] →
      Refused {} (outputDirectory file out) t file →
        ∃ error logged,
          runOn (generate file out runtime docs) {} t =
            ((.error (.error error), ⟨"", logged⟩), t) ∧
          error.leaves = faults {} file (outputDirectory file out) [] definitions ∧
          Error.HoldsReports error.leaves error.report ∧
          generateRun verbose file out runtime docs t =
            (⟨1, "", (if verbose then logged else "") ++ (error.report ++ "\n")⟩, t) := by
  refine ⟨fun errors => ⟨Error.collect_eq_none_iff errors, Error.leaves_of_collect errors⟩, ?_⟩
  intro verbose docs file out runtime t definitions hfile hne hrefused
  obtain ⟨error, herror⟩ := checkSystems_of_not_accepted (generatorFor runtime docs) file
    (outputDirectory file out) definitions (hrefused.not_accepted hfile hne)
  obtain ⟨logged, hrun⟩ := runOn_generate_of_declares docs file out runtime t definitions hfile
  rw [if_neg hne, runOn_get_error _ _ _ t error herror] at hrun
  refine ⟨error, logged, hrun, leaves_of_checkSystems _ _ _ definitions error herror,
    error.holdsReports_leaves, ?_⟩
  exact generateRun_eq_of_error verbose docs file out runtime t _ _ t hrun

/-- Three systems for one path. The second one has the name of the first and is not valid. -/
def faultyText : String :=
  "system A\noutput \"x.rs\"\nunits M\nsymbols m\nconstants m\n" ++
    "system A\noutput \"x.rs\"\nunits S, S, S\nsymbols s, s, s\nconstants c, d, e\n" ++
    "system B\noutput \"x.rs\"\nunits S\nsymbols s\nconstants s\n"

/-- One name is repeated, one unit is repeated twice, and the path of the third system is that of
the first, because the second one is not valid. -/
theorem errors_aggregated_faulty :
    ∃ error logged,
      runOn (generate "in/s.units" none none false) {} (treeWith faultyText) =
        ((.error (.error error), ⟨"", logged⟩), treeWith faultyText) ∧
      error.leaves.map Error.message =
        ["Specification error: system 'A' is declared more than once in in/s.units",
          "Specification error: unit 'S' is declared more than once in system 'A'",
          "Specification error: unit 'S' is declared more than once in system 'A'",
          "Specification error: systems 'A' and 'B' both write in/x.rs"] ∧
      Error.HoldsReports error.leaves error.report := by
  have hread : (treeWith faultyText).readFile "in/s.units" = .ok faultyText :=
    eq_ok_of_toOption _ _ (by decide +kernel)
  have hdirectory : outputDirectory "in/s.units" none = "in" := by decide +kernel
  have hfaults : (DefinitionFile.parse faultyText (some "in/s.units") {}).toOption.map
      (fun definitions => (definitions.map (·.name),
        (faults {} "in/s.units" "in" [] definitions).map Error.message)) =
      some (["A", "A", "B"],
        ["Specification error: system 'A' is declared more than once in in/s.units",
          "Specification error: unit 'S' is declared more than once in system 'A'",
          "Specification error: unit 'S' is declared more than once in system 'A'",
          "Specification error: systems 'A' and 'B' both write in/x.rs"]) := by
    decide +kernel
  obtain ⟨definitions, hparse, hpair⟩ := Option.map_eq_some_iff.mp hfaults
  obtain ⟨hnames, hmessages⟩ := Prod.mk.inj hpair
  have hfile : Declares (treeWith faultyText) "in/s.units" definitions :=
    ⟨faultyText, hread, eq_ok_of_toOption _ _ hparse⟩
  have hne : definitions ≠ [] := by
    rintro rfl
    cases hnames
  have hrepeated : ¬(definitions.map (·.name)).Nodup := by
    rw [hnames]
    decide
  obtain ⟨error, logged, hrun, hleaves, hreport, -⟩ := errors_aggregated.2 false false
    "in/s.units" none none _ definitions hfile hne (.repeatedName definitions hfile hrepeated)
  rw [hdirectory] at hleaves
  exact ⟨error, logged, hrun, hleaves ▸ hmessages, hreport⟩

end UnitSystems.Command
