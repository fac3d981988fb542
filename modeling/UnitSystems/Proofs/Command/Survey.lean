import Mathlib.Data.List.Induction
import Mathlib.Data.List.Nodup
import UnitSystems.Command.Session
import UnitSystems.Proofs.Validation.Valid

/-!
# Which definition files are accepted

The systems of a file are looked at one after the other, and the survey remembers what it saw. No
error is found exactly when every system is valid and no two of them share a name or a path of
their files. Paths are compared by their components.
-/

namespace UnitSystems

/-- The target of a valid system is the one that its definition declares. -/
theorem Definition.target_of_validate (d : Definition) (limits : Limits) (s : Specification)
    (h : d.validate limits = .ok s) (directory : String) :
    Generator.target s directory = Path.join directory d.outputTarget := by
  obtain ⟨-, -, -, root, -, rfl⟩ := (d.validate_eq_ok_iff limits s).mp h
  rfl

/-- A valid system has the name that its definition declares. -/
theorem Definition.name_of_validate (d : Definition) (limits : Limits) (s : Specification)
    (h : d.validate limits = .ok s) : s.name = d.name := by
  obtain ⟨-, -, -, root, -, rfl⟩ := (d.validate_eq_ok_iff limits s).mp h
  rfl

namespace Command

/-- The components of the path that the file of a system goes to. -/
def targetComponents (directory : String) (d : Definition) : List String :=
  Path.components (Path.join directory d.outputTarget)

/-- Systems that can be generated together: each is valid, and no two of them share their name or
the path of their files. -/
structure Accepted (limits : Limits) (directory : String) (definitions : List Definition) :
    Prop where
  valid : ∀ d ∈ definitions, ∃ s, d.validate limits = .ok s
  names : (definitions.map (·.name)).Nodup
  targets : (definitions.map (targetComponents directory)).Nodup

/-- Values at the elements of a list are distinct when those before the last are, and the last is
none of them. -/
theorem nodup_map_concat_iff {α β : Type} (f : α → β) (list : List α) (a : α) :
    ((list ++ [a]).map f).Nodup ↔ f a ∉ list.map f ∧ (list.map f).Nodup := by
  rw [List.map_append, List.map_singleton, ← List.concat_eq_append, List.nodup_concat]

/-- Systems can be generated together with one more if that is valid and shares nothing with
them. -/
theorem accepted_concat_iff (limits : Limits) (directory : String) (definitions : List Definition)
    (d : Definition) : Accepted limits directory (definitions ++ [d]) ↔
      Accepted limits directory definitions ∧ (∃ s, d.validate limits = .ok s) ∧
        d.name ∉ definitions.map (·.name) ∧
        targetComponents directory d ∉ definitions.map (targetComponents directory) := by
  constructor
  · rintro ⟨hvalid, hnames, htargets⟩
    rw [nodup_map_concat_iff] at hnames htargets
    rw [List.forall_mem_append, List.forall_mem_singleton] at hvalid
    exact ⟨⟨hvalid.1, hnames.2, htargets.2⟩, hvalid.2, hnames.1, htargets.1⟩
  · rintro ⟨⟨hvalid, hnames, htargets⟩, hd, hname, htarget⟩
    refine ⟨?_, (nodup_map_concat_iff _ _ _).mpr ⟨hname, hnames⟩,
      (nodup_map_concat_iff _ _ _).mpr ⟨htarget, htargets⟩⟩
    rw [List.forall_mem_append, List.forall_mem_singleton]
    exact ⟨hvalid, hd⟩

namespace Survey

variable (g : Generator) (file directory : String)

/-- A system adds no error exactly when it is valid and shares neither its name nor its path. -/
theorem errors_add_eq_nil_iff (survey : Survey) (d : Definition) :
    (survey.add g file directory d).errors = [] ↔
      survey.errors = [] ∧ (∃ s, d.validate g.limits = .ok s) ∧ d.name ∉ survey.names ∧
        targetComponents directory d ∉ survey.targets.map (·.1) := by
  have hname : survey.nameErrors file d = [] ↔ d.name ∉ survey.names := by
    simp [nameErrors]
  unfold add
  cases hvalid : d.validate g.limits with
  | error error => simp
  | ok s =>
    have htarget : survey.targetErrors directory d s = [] ↔
        targetComponents directory d ∉ survey.targets.map (·.1) := by
      have hlookup : survey.targets.lookup (targetComponents directory d) = none ↔
          targetComponents directory d ∉ survey.targets.map (·.1) := by
        rw [List.lookup_eq_none_iff, List.mem_map, not_exists]
        refine forall_congr' fun entry => ?_
        rw [bne_iff_ne, not_and, ne_comm]
      rw [← hlookup, targetErrors, d.target_of_validate g.limits s hvalid, targetComponents]
      cases survey.targets.lookup (Path.components (Path.join directory d.outputTarget)) <;> simp
    simp only [List.append_eq_nil_iff, hname, htarget, Except.ok.injEq, exists_eq', true_and,
      and_assoc]

/-- A survey knows the names of the systems it saw. -/
theorem names_foldl (definitions : List Definition) (survey : Survey) :
    (definitions.foldl (add g file directory) survey).names =
      (definitions.map (·.name)).reverse ++ survey.names := by
  induction definitions generalizing survey with
  | nil => rfl
  | cons d definitions ih =>
    have hnames : (survey.add g file directory d).names = d.name :: survey.names := by
      unfold add
      cases d.validate g.limits <;> rfl
    rw [List.foldl_cons, ih, hnames, List.map_cons, List.reverse_cons, List.append_assoc,
      List.singleton_append]

/-- A survey of valid systems knows the paths and the specifications of all of them. -/
theorem foldl_of_valid (definitions : List Definition)
    (h : ∀ d ∈ definitions, ∃ s, d.validate g.limits = .ok s) (survey : Survey) :
    (definitions.foldl (add g file directory) survey).targets.map (·.1) =
        (definitions.map (targetComponents directory)).reverse ++ survey.targets.map (·.1) ∧
      ∃ specifications, (definitions.foldl (add g file directory) survey).specifications =
          survey.specifications ++ specifications ∧
        definitions.map (·.validate g.limits) = specifications.map .ok := by
  induction definitions generalizing survey with
  | nil => exact ⟨rfl, [], (List.append_nil _).symm, rfl⟩
  | cons d definitions ih =>
    rw [List.forall_mem_cons] at h
    obtain ⟨⟨s, hs⟩, hrest⟩ := h
    obtain ⟨htargets, specifications, hspecifications, hvalid⟩ :=
      ih hrest (survey.add g file directory d)
    have hadd : survey.add g file directory d =
        { names := d.name :: survey.names
          targets := (targetComponents directory d, d.name) :: survey.targets
          specifications := survey.specifications ++ [s]
          errors := survey.errors ++ survey.nameErrors file d ++
            survey.targetErrors directory d s } := by
      simp only [add, hs, targetComponents, d.target_of_validate g.limits s hs]
    rw [List.foldl_cons]
    refine ⟨?_, s :: specifications, ?_, ?_⟩
    · rw [htargets, hadd]
      simp
    · rw [hspecifications, hadd]
      simp
    · rw [List.map_cons, List.map_cons, hs, hvalid]

/-- The survey of a file has no error exactly when its systems can be generated together. -/
theorem errors_eq_nil_iff (definitions : List Definition) :
    (definitions.foldl (add g file directory) {}).errors = [] ↔
      Accepted g.limits directory definitions := by
  induction definitions using List.reverseRecOn with
  | nil => exact ⟨fun _ => ⟨by simp, .nil, .nil⟩, fun _ => rfl⟩
  | append_singleton definitions d ih =>
    rw [List.foldl_append, List.foldl_cons, List.foldl_nil, errors_add_eq_nil_iff, ih,
      accepted_concat_iff]
    refine and_congr_right fun haccepted => ?_
    rw [names_foldl, (foldl_of_valid g file directory definitions haccepted.valid {}).1]
    simp

end Survey

/-- The systems of a file are specified when they can be generated together. -/
theorem checkSystems_of_accepted (g : Generator) (file directory : String)
    (definitions : List Definition) (h : Accepted g.limits directory definitions) :
    ∃ specifications, checkSystems g file directory definitions = .ok specifications ∧
      definitions.map (·.validate g.limits) = specifications.map .ok := by
  obtain ⟨-, specifications, hspecifications, hvalid⟩ :=
    Survey.foldl_of_valid g file directory definitions h.valid {}
  refine ⟨specifications, ?_, hvalid⟩
  rw [checkSystems, (Survey.errors_eq_nil_iff g file directory definitions).mpr h]
  simpa [Error.collect] using hspecifications

/-- Systems that cannot be generated together are refused. -/
theorem checkSystems_of_not_accepted (g : Generator) (file directory : String)
    (definitions : List Definition) (h : ¬Accepted g.limits directory definitions) :
    ∃ error, checkSystems g file directory definitions = .error error := by
  unfold checkSystems
  cases hcollect : Error.collect (definitions.foldl (Survey.add g file directory) {}).errors with
  | some error => exact ⟨error, by simp only [hcollect]⟩
  | none =>
    have hnil := (Error.collect_eq_none_iff _).mp hcollect
    exact absurd ((Survey.errors_eq_nil_iff g file directory definitions).mp hnil) h

end Command

end UnitSystems
