import UnitSystems.Proofs.Dimension.Exact
import UnitSystems.Proofs.Generated.Reader
import UnitSystems.Proofs.Validation.Valid

/-!
# What generated types denote

The parameters of an implementation stand for integers. A type applied to arguments denotes a
dimension when the arguments stand for its exponents, position by position. The traits on single
exponents come from a runtime that is not part of the generated file.
-/

namespace UnitSystems.Generated

/-- The traits that a runtime implements for exponents. -/
structure Runtime where
  /-- The exponents with a trait that takes no argument. -/
  has : String → Int → Prop
  /-- The output of a trait between two exponents, where there is an implementation. -/
  output? : String → Int → Int → Option Int

/-- Integers for the parameters of an implementation, none for other names. -/
abbrev Substitution := String → Option Int

section

variable (r : Runtime) (σ : Substitution)

/-- The integer that an argument stands for. A trait is one of the runtime where no parameter hides
it. -/
def Argument.value? : Argument → Option Int
  | parameter name => σ name
  | projection left exponentTrait right =>
    match σ exponentTrait, σ left, σ right with
    | none, some m, some n => r.output? exponentTrait m n
    | _, _, _ => none
  | exponent value => some value

/-- A dimension type denotes a dimension of a system: it applies the type of the system, which no
parameter hides, to arguments that stand for the exponents, position by position. -/
def DimensionType.Denotes (t : DimensionType) (system : String) (d : Dimension) : Prop :=
  t.system = system ∧ σ system = none ∧ t.arguments.map (Argument.value? r σ) = d.values.map some

/-- An exponent has a trait, which no parameter hides. -/
def Trait.Holds (t : Trait) (m : Int) : Prop :=
  σ t.name = none ∧
    match t.argument with
    | none => r.has t.name m
    | some argument => ∃ n, σ argument = some n ∧ (r.output? t.name m n).isSome = true

/-- A condition holds of the exponent that its subject stands for. -/
def Bound.Holds (b : Bound) : Prop :=
  ∃ m, b.subject.value? r σ = some m ∧ ∀ t ∈ b.traits, t.Holds r σ m

end

/-- Distinct names can be given any integers, and no other name is given one. -/
theorem exists_substitution (names : List String) (hnames : names.Nodup) (values : List Int)
    (hlength : names.length = values.length) :
    ∃ σ : Substitution, (∀ name, (σ name).isSome = true ↔ name ∈ names) ∧
      names.map σ = values.map some := by
  induction names generalizing values with
  | nil =>
    obtain rfl := List.length_eq_zero_iff.mp hlength.symm
    exact ⟨fun _ => none, by simp, rfl⟩
  | cons name names ih =>
    cases values with
    | nil => simp at hlength
    | cons value values =>
      rw [List.nodup_cons] at hnames
      obtain ⟨σ, hdomain, hvalues⟩ := ih hnames.2 values (by simpa using hlength)
      refine ⟨fun other => if other = name then some value else σ other, fun other => ?_, ?_⟩
      · by_cases h : other = name <;> simp [h, hdomain]
      · have hrest : names.map (fun other => if other = name then some value else σ other) =
            names.map σ := by
          refine List.map_congr_left fun other hother => if_neg ?_
          rintro rfl
          exact hnames.1 hother
        simp only [List.map_cons, ↓reduceIte, hrest, hvalues]

/-- A type applied to parameters denotes the dimension of their integers. -/
theorem denotes_parameters_iff (r : Runtime) (σ : Substitution) (s : Specification)
    (names : List String) (d : Dimension) : (typeOfParameters s names).Denotes r σ s.name d ↔
      σ s.name = none ∧ names.map σ = d.values.map some := by
  have hvalue : Argument.value? r σ ∘ Argument.parameter = σ := rfl
  simp only [DimensionType.Denotes, typeOfParameters, typeOf, List.map_map, hvalue, true_and]

/-- Integers of names are the values of a function on these names. -/
theorem exists_values (names : List String) (f : String → Option Int) (values : List Int)
    (h : names.map f = values.map some) :
    ∃ g : String → Int, values = names.map g ∧ ∀ name ∈ names, f name = some (g name) := by
  refine ⟨fun name => (f name).getD 0, ?_, fun name hname => ?_⟩
  · have hvalues := congrArg (List.map (Option.getD · 0)) h
    rw [List.map_map, List.map_map] at hvalues
    simpa [Function.comp_def] using hvalues.symm
  · obtain ⟨value, -, hvalue⟩ := List.mem_map.mp (h ▸ List.mem_map_of_mem hname)
    simp only [← hvalue, Option.getD_some]

/-- A type applied to words is open. -/
theorem isOpen_typeOfParameters (s : Specification) (hs : s.IsValid) (names : List String)
    (hnames : ∀ name ∈ names, IsWordText name) : (typeOfParameters s names).IsOpen := by
  refine ⟨isWordText_of_isIdentifier s.name hs.name, ?_⟩
  rw [typeOfParameters, typeOf, List.forall_mem_map]
  exact hnames

/-- The bound of exponents has the name of a word. -/
theorem isWordText_exponentBound : IsWordText exponentBound := by decide

/-- A condition on an argument is spelled when the argument and the traits are. -/
theorem isOpen_bound (subject : Argument) (hsubject : subject.IsOpen) (others : List Trait)
    (hothers : ∀ t ∈ others, t.IsOpen) :
    Bound.IsOpen ⟨subject, ⟨exponentBound, none⟩ :: others⟩ := by
  refine ⟨hsubject, List.forall_mem_cons.mpr ⟨⟨isWordText_exponentBound, ?_⟩, hothers⟩⟩
  rintro argument ⟨⟩

end UnitSystems.Generated
