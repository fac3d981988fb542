import UnitSystems.Generated.File
import UnitSystems.Proofs.Validation.Names

/-!
# Names that a generated file declares

The record and the aliases declare types, and the constants declare values. A file declares the
type of the system, the dimensionless type and the types of the base units, and a constant for
each type but the first.
-/

namespace UnitSystems.Generated

/-- The types that an item declares. -/
def Item.types : Item → List String
  | record name _ _ => [name]
  | typeAlias name _ => [name]
  | _ => []

/-- The constants that an item declares. -/
def Item.constants : Item → List String
  | constant name _ _ _ => [name]
  | _ => []

/-- What is looked for in items is nowhere that types are only related to traits, the runtime is
imported or the reader is addressed. In an alias it depends on the name alone. -/
structure InNamedItems {α : Type} (f : Item → List α) (ofAlias : String → List α) : Prop where
  comment : ∀ marker text, f (.comment marker text) = []
  allow : ∀ lint, f (.allow lint) = []
  imports : ∀ path names, f (.imports path names) = []
  dimension : ∀ parameters target, f (.dimension parameters target) = []
  operation : ∀ o, f (.operation o) = []
  typeAlias : ∀ name type, f (.typeAlias name type) = ofAlias name
  dimensionless : ∀ name, f (.dimensionless name) = []
  blank : f .blank = []

/-- Such things stand in the import of the marker type, the record, the display, the aliases and
the constants of a file. -/
theorem flatMap_items {α : Type} (f : Item → List α) (ofAlias : String → List α)
    (hf : InNamedItems f ofAlias) (s : Specification) (options : Options) :
    (items s options).flatMap f =
      f (.importOne "std::marker::PhantomData") ++
        f (.record s.name s.identifiers
          (s.baseUnits.map fun unit => (unit.constant, unit.identifier))) ++
        f (.formatter (display s)) ++ (unitlessName :: s.identifiers).flatMap ofAlias ++
        (constants s).flatMap f := by
  have htable : (if options.unitTable then unitTable s else []).flatMap f = [] := by
    split
    · simp [unitTable, List.flatMap_map, hf.comment, hf.blank]
    · rfl
  have hlints : (allowedLints.map Item.allow).flatMap f = [] := by
    simp [List.flatMap_map, hf.allow]
  have hcombinations (ops : List CombinationOperator) : (combinations s ops).flatMap f = [] := by
    simp [combinations, List.flatMap_assoc, hf.operation, hf.blank]
  have hscalings (ops : List ScalarOperator) : (scalings s ops).flatMap f = [] := by
    simp [scalings, List.flatMap_assoc, hf.operation, hf.blank]
  have hunits : (s.identifiers.mapIdx fun position name =>
      Item.typeAlias name (unitType s position)).flatMap f = s.identifiers.flatMap ofAlias := by
    rw [List.mapIdx_eq_zipIdx_map, List.flatMap_map]
    simp only [hf.typeAlias]
    rw [← List.flatMap_map Prod.fst, List.zipIdx_map_fst]
  simp only [items, header, formatter, aliases, List.flatMap_append, List.flatMap_cons,
    List.flatMap_nil, htable, hlints, hcombinations, hscalings, hunits, hf.comment, hf.imports,
    hf.dimension, hf.typeAlias, hf.dimensionless, hf.blank, List.nil_append, List.append_nil,
    List.append_assoc]

/-- A file declares the types of the system, of the numbers and of the base units. -/
theorem types_items (s : Specification) (options : Options) :
    (items s options).flatMap Item.types = s.name :: unitlessName :: s.identifiers := by
  have hconstants : (constants s).flatMap Item.types = [] := by
    simp [constants, constant, Item.types, List.flatMap_map]
  rw [flatMap_items Item.types (fun name => [name]) (by constructor <;> intros <;> rfl), hconstants,
    List.flatMap_singleton', List.append_nil]
  rfl

/-- A file declares a constant for the numbers and one for each base unit. -/
theorem constants_items (s : Specification) (options : Options) :
    (items s options).flatMap Item.constants =
      s.unitlessConstant :: s.baseUnits.map (·.constant) := by
  have hconstants : (constants s).flatMap Item.constants =
      s.unitlessConstant :: s.baseUnits.map (·.constant) := by
    simp [constants, constant, Item.constants, List.flatMap_map, ← List.map_eq_flatMap]
  rw [flatMap_items Item.constants (fun _ => []) (by constructor <;> intros <;> rfl), hconstants]
  simp [Item.constants]

end UnitSystems.Generated
