import UnitSystems.Proofs.Generated.Algebra
import UnitSystems.Proofs.Generated.Declared
import UnitSystems.Proofs.Validation.WellFormed

/-!
# Type parameters of a generated file

An item that binds type parameters hides every other meaning of their names. The parameters are the
base units, the base units with a suffix for each operand, or the base units with the parameter of
a scaling. Validation and the suffixes together keep them apart from one another and from every
type and trait that the item refers to.
-/

namespace UnitSystems.Generated

/-- The type parameters that an item binds, if it binds any. -/
def Item.parameters? : Item → Option (List String)
  | record _ parameters _ => some parameters
  | dimension parameters _ => some parameters
  | operation o => some o.parameters
  | formatter f => some f.parameters
  | _ => none

/-- The types and traits that an argument refers to, besides type parameters. -/
def Argument.names : Argument → List String
  | parameter _ => []
  | projection _ exponentTrait _ => [exponentTrait]
  | exponent _ => ["Succ", "Pred", "Zero"]

/-- The types and traits that a dimension type refers to. -/
def DimensionType.names (t : DimensionType) : List String :=
  t.system :: t.arguments.flatMap Argument.names

/-- The types and traits that an operand refers to. -/
def Operand.names : Operand → List String
  | dimension type => type.names
  | parameter _ => []

/-- The types and traits that a condition refers to. -/
def Bound.names (b : Bound) : List String :=
  b.subject.names ++ b.traits.map (·.name)

/-- The types and traits that an operator refers to. -/
def Operation.names (o : Operation) : List String :=
  o.dimensionTrait :: (o.operand.names ++ o.target.names ++ o.bounds.flatMap Bound.names ++
    o.output.names)

/-- The types and traits that the display refers to. A base unit is matched as an integer and its
exponent is printed as a fraction. -/
def Formatter.names (f : Formatter) : List String :=
  ["DimToString", "String", "ToInt", "f64"] ++ f.target.names ++ f.bounds.flatMap Bound.names

/-- The types and traits that an item with type parameters refers to. -/
def Item.names : Item → List String
  | record name _ _ => [name, exponentBound, "PhantomData"]
  | dimension _ target => ["Dimension", exponentBound] ++ target.names
  | operation o => o.names
  | formatter f => f.names
  | _ => []

/-- The names that an item imports. -/
def Item.imported : Item → List String
  | imports _ names => names
  | importOne path => [Names.lastSegment path]
  | _ => []

/-- Names that an item with type parameters can refer to: the system, the type that exponents are
printed in, and what the generated file uses for itself. -/
def IsReferred (s : Specification) (name : String) : Prop :=
  name = s.name ∨ name = "f64" ∨ name ∈ Names.reserved ∧ name ≠ scalarParameter

/-- Type parameters that can be bound together in a file: distinct identifiers that no item with
type parameters refers to otherwise. -/
structure AreApart (s : Specification) (parameters : List String) : Prop where
  distinct : parameters.Nodup
  legal : ∀ name ∈ parameters, Names.isIdentifier name = true
  unreferred : ∀ name ∈ parameters, ¬IsReferred s name

/-- A unit with the digit of an operand is an identifier. -/
theorem isIdentifier_append_digit (unit suffix : String) (digit : Char)
    (hsuffix : suffix.toList = [digit]) (hdigit : digit = '1' ∨ digit = '2')
    (h : Names.isIdentifier unit = true) : Names.isIdentifier (unit ++ suffix) = true := by
  have hlast : (unit ++ suffix).toList.getLast? = some digit := by
    rw [String.toList_append, hsuffix, List.getLast?_concat]
  have hother : ∀ name ∈ "_" :: Names.keywords, name.toList.getLast? ≠ some '1' ∧
      name.toList.getLast? ≠ some '2' := by decide
  have hfree : unit ++ suffix ∉ "_" :: Names.keywords := by
    intro hmem
    rcases hdigit with rfl | rfl
    · exact (hother _ hmem).1 hlast
    · exact (hother _ hmem).2 hlast
  rw [List.mem_cons, not_or] at hfree
  obtain ⟨first, rest, hunit, hfirst, hrest⟩ := ((Names.isIdentifier_iff unit).mp h).word
  have hrestDigit : Names.isRest digit = true := by
    rcases hdigit with rfl | rfl <;> decide
  refine (Names.isIdentifier_iff _).mpr
    { word := ⟨first, rest ++ [digit], ?_, hfirst, ?_⟩
      not_underscore := hfree.1
      not_keyword := hfree.2 }
  · rw [String.toList_append, hunit, hsuffix, List.cons_append]
  · rw [List.forall_mem_append, List.forall_mem_singleton]
    exact ⟨hrest, hrestDigit⟩

section

variable (d : Definition) (limits : Limits) (s : Specification) (hs : d.validate limits = .ok s)

include hs

/-- No base unit of a valid system is a type that needs no import. -/
theorem primitive_notMem_identifiers (name : String) (hname : name ∈ Names.primitives) :
    name ∉ s.identifiers := by
  obtain ⟨htypes, -, -, hfree⟩ := d.types_of_validate limits s hs
  intro hmem
  have hreserved := hfree name (htypes ▸ List.mem_cons_of_mem s.name hmem)
  rw [Names.isReserved, Bool.or_eq_false_iff, Bool.or_eq_false_iff] at hreserved
  simp [hname] at hreserved

/-- No item refers to a base unit. -/
theorem not_isReferred_identifier (unit : String) (hunit : unit ∈ s.identifiers) :
    ¬IsReferred s unit := by
  have hvalid := d.isValid_of_validate limits s hs
  rintro (rfl | rfl | ⟨hmem, -⟩)
  · exact hvalid.system hunit
  · exact primitive_notMem_identifiers d limits s hs "f64" (by decide) hunit
  · exact hvalid.reserved unit hunit hmem

/-- The base units can be bound together. -/
theorem areApart_identifiers : AreApart s s.identifiers := by
  have hvalid := d.isValid_of_validate limits s hs
  exact ⟨hvalid.nodup, hvalid.identifiers, not_isReferred_identifier d limits s hs⟩

/-- The parameters of two operands can be bound together. -/
theorem areApart_suffixed :
    AreApart s (suffixed s Names.leftSuffix ++ suffixed s Names.rightSuffix) := by
  have hvalid := d.isValid_of_validate limits s hs
  refine
    { distinct := nodup_suffixed s hvalid.nodup
      legal := List.forall_mem_append.mpr ⟨?_, ?_⟩
      unreferred := ?_ }
  · rw [suffixed, List.forall_mem_map]
    exact fun unit hunit =>
      isIdentifier_append_digit unit _ '1' rfl (.inl rfl) (hvalid.identifiers unit hunit)
  · rw [suffixed, List.forall_mem_map]
    exact fun unit hunit =>
      isIdentifier_append_digit unit _ '2' rfl (.inr rfl) (hvalid.identifiers unit hunit)
  · rintro name hname (rfl | rfl | ⟨hmem, -⟩)
    · exact name_notMem_suffixed s hvalid hname
    · -- A suffix is the last character of its parameter, and the type ends in another digit.
      rw [List.mem_append, suffixed, suffixed, List.mem_map, List.mem_map] at hname
      rcases hname with ⟨unit, -, heq⟩ | ⟨unit, -, heq⟩
      · simpa [Names.leftSuffix, String.toList_append] using
          congrArg (fun name => name.toList.getLast?) heq
      · simpa [Names.rightSuffix, String.toList_append] using
          congrArg (fun name => name.toList.getLast?) heq
    · exact reserved_notMem_suffixed s name hmem hname

/-- The base units and the parameter of a scaling can be bound together. -/
theorem areApart_scaling : AreApart s (s.identifiers ++ [scalarParameter]) := by
  have hvalid := d.isValid_of_validate limits s hs
  have hunits := areApart_identifiers d limits s hs
  refine
    { distinct := List.nodup_append.mpr ⟨hunits.distinct, List.nodup_singleton _, ?_⟩
      legal := List.forall_mem_append.mpr ⟨hunits.legal, by decide⟩
      unreferred := List.forall_mem_append.mpr
        ⟨hunits.unreferred, List.forall_mem_singleton.mpr ?_⟩ }
  · rintro unit hunit _ hmem rfl
    obtain rfl := List.mem_singleton.mp hmem
    exact hvalid.reserved _ hunit scalarParameter_mem_reserved
  · rintro (heq | heq | ⟨-, hne⟩)
    · exact hvalid.reservedName (heq ▸ scalarParameter_mem_reserved)
    · exact absurd heq (by decide)
    · exact hne rfl

end

section

variable (s : Specification)

/-- A type applied to type parameters refers to the system alone. -/
theorem names_typeOfParameters (parameters : List String) :
    (typeOfParameters s parameters).names = [s.name] := by
  simp [typeOfParameters, typeOf, DimensionType.names, Argument.names, List.flatMap_map]

/-- A trait of the generated file is referred to. -/
theorem isReferred_of_mem_reserved (name : String) (hname : name ∈ Names.reserved)
    (hne : name ≠ scalarParameter) : IsReferred s name :=
  .inr (.inr ⟨hname, hne⟩)

/-- Exponents are referred to. -/
theorem isReferred_exponentBound : IsReferred s exponentBound :=
  isReferred_of_mem_reserved s _ exponentBound_mem_reserved (by decide)

/-- A condition on an argument refers to what the argument and the traits refer to. -/
theorem isReferred_bound (subject : Argument) (hsubject : ∀ name ∈ subject.names, IsReferred s name)
    (others : List Trait) (hothers : ∀ t ∈ others, IsReferred s t.name) :
    ∀ name ∈ Bound.names ⟨subject, ⟨exponentBound, none⟩ :: others⟩, IsReferred s name := by
  rw [Bound.names, List.forall_mem_append, List.map_cons, List.forall_mem_cons, List.forall_mem_map]
  exact ⟨hsubject, isReferred_exponentBound s, hothers⟩

/-- A type applied to the outputs of a trait refers to the system and the trait. -/
theorem isReferred_typeOf (exponentTrait : String) (htrait : IsReferred s exponentTrait)
    (left right : String → String) :
    ∀ name ∈ (typeOf s (s.identifiers.map fun unit =>
      .projection (left unit) exponentTrait (right unit))).names, IsReferred s name := by
  rw [typeOf, DimensionType.names, List.forall_mem_cons, List.flatMap_map]
  simp only [Argument.names, List.mem_flatMap, List.mem_singleton]
  refine ⟨.inl rfl, ?_⟩
  rintro name ⟨_, _, rfl⟩
  exact htrait

/-- The conditions of an operator refer to exponents and to its trait on them. -/
theorem isReferred_pairs (exponentTrait : String) (htrait : IsReferred s exponentTrait)
    (left right : String → String) (middle : List Bound)
    (hmiddle : ∀ b ∈ middle, ∀ name ∈ b.names, IsReferred s name) :
    ∀ b ∈ s.identifiers.map (fun unit => (⟨.parameter (left unit),
          [⟨exponentBound, none⟩, ⟨exponentTrait, some (right unit)⟩]⟩ : Bound)) ++ middle ++
        s.identifiers.map (fun unit => (⟨.projection (left unit) exponentTrait (right unit),
          [⟨exponentBound, none⟩]⟩ : Bound)), ∀ name ∈ b.names, IsReferred s name := by
  rw [List.forall_mem_append, List.forall_mem_append, List.forall_mem_map, List.forall_mem_map]
  refine ⟨⟨fun unit _ => ?_, hmiddle⟩, fun unit _ => ?_⟩
  · refine isReferred_bound s (.parameter _) (by simp [Argument.names]) _ fun t ht => ?_
    obtain rfl := List.mem_singleton.mp ht
    exact htrait
  · refine isReferred_bound s (.projection _ _ _) ?_ [] (by simp)
    rw [Argument.names, List.forall_mem_singleton]
    exact htrait

/-- A condition that asks a parameter to be an exponent refers to exponents. -/
theorem isReferred_parameter (parameter : String) :
    ∀ name ∈ Bound.names ⟨.parameter parameter, [⟨exponentBound, none⟩]⟩, IsReferred s name :=
  isReferred_bound s (.parameter parameter) (by simp [Argument.names]) [] (by simp)

/-- What an operator between two dimensions refers to. -/
theorem isReferred_combination (op : CombinationOperator) :
    ∀ name ∈ (combination s op).names, IsReferred s name := by
  have htraits := combination_traits_mem_reserved op
  have hexponent : IsReferred s op.exponentTrait :=
    isReferred_of_mem_reserved s _ htraits.1 (by cases op <;> decide)
  have hdimension : IsReferred s op.dimensionTrait :=
    isReferred_of_mem_reserved s _ htraits.2 (by cases op <;> decide)
  have htype (parameters : List String) :
      ∀ name ∈ (typeOfParameters s parameters).names, IsReferred s name := by
    rw [names_typeOfParameters, List.forall_mem_singleton]
    exact .inl rfl
  simp only [Operation.names, List.forall_mem_cons, List.forall_mem_append]
  refine ⟨hdimension, ⟨⟨htype _, htype _⟩, ?_⟩, ?_⟩
  · rw [List.forall_mem_flatMap, combination_bounds]
    refine isReferred_pairs s _ hexponent _ _ _ ?_
    rw [List.forall_mem_map]
    exact fun unit _ => isReferred_parameter s _
  · rw [combination_output]
    exact isReferred_typeOf s _ hexponent _ _

/-- What an operator that scales a dimension refers to. -/
theorem isReferred_scaling (op : ScalarOperator) :
    ∀ name ∈ (scaling s op).names, IsReferred s name := by
  have htraits := scaling_traits_mem_reserved op
  have hexponent := isReferred_of_mem_reserved s _ htraits.1 (scaling_traits_ne op).1
  have hdimension := isReferred_of_mem_reserved s _ htraits.2 (scaling_traits_ne op).2
  simp only [Operation.names, List.forall_mem_cons, List.forall_mem_append]
  refine ⟨hdimension, ⟨⟨by simp [scaling, Operand.names], ?_⟩, ?_⟩, ?_⟩
  · rw [scaling, names_typeOfParameters, List.forall_mem_singleton]
    exact .inl rfl
  · rw [List.forall_mem_flatMap, scaling_bounds]
    refine isReferred_pairs s _ hexponent (fun unit => unit) (fun _ => scalarParameter) _ ?_
    rw [List.forall_mem_singleton]
    exact isReferred_parameter s _
  · rw [scaling, List.map_map]
    exact isReferred_typeOf s _ hexponent (fun unit => unit) (fun _ => scalarParameter)

/-- What the display refers to. -/
theorem isReferred_display : ∀ name ∈ (display s).names, IsReferred s name := by
  have hreserved : ∀ name ∈ ["DimToString", "String", "ToInt"],
      name ∈ Names.reserved ∧ name ≠ scalarParameter := by decide
  have htoInt := hreserved "ToInt" (by decide)
  simp only [Formatter.names, List.forall_mem_append, List.forall_mem_flatMap, display,
    names_typeOfParameters, List.forall_mem_singleton, List.forall_mem_map]
  refine ⟨⟨?_, .inl rfl⟩, fun unit _ => ?_⟩
  · intro name hname
    rw [show ["DimToString", "String", "ToInt", "f64"] = ["DimToString", "String", "ToInt"] ++
      ["f64"] from rfl, List.mem_append, List.mem_singleton] at hname
    exact .inr (hname.symm.imp_right (hreserved name))
  · refine isReferred_bound s (.parameter _) (by simp [Argument.names]) _ fun t ht => ?_
    obtain rfl := List.mem_singleton.mp ht
    exact isReferred_of_mem_reserved s _ htoInt.1 htoInt.2

end

/-- What is looked for in items is nowhere that no type parameter is bound and nothing imported. -/
structure InBindingItems {α : Type} (f : Item → List α) : Prop where
  comment : ∀ marker text, f (.comment marker text) = []
  allow : ∀ lint, f (.allow lint) = []
  typeAlias : ∀ name type, f (.typeAlias name type) = []
  dimensionless : ∀ name, f (.dimensionless name) = []
  constant : ∀ name type scalar literal, f (.constant name type scalar literal) = []
  blank : f .blank = []

/-- Such things stand in the imports, the dimension type, the operators and the display. -/
theorem flatMap_binding_items {α : Type} (f : Item → List α) (hf : InBindingItems f)
    (s : Specification) (options : Options) :
    (items s options).flatMap f =
      f (.imports options.runtime runtimeNames) ++ f (.importOne "std::marker::PhantomData") ++
        f (.record s.name s.identifiers
          (s.baseUnits.map fun unit => (unit.constant, unit.identifier))) ++
        f (.dimension s.identifiers (typeOfParameters s s.identifiers)) ++
        CombinationOperator.all.flatMap (fun op => f (.operation (combination s op))) ++
        ScalarOperator.all.flatMap (fun op => f (.operation (scaling s op))) ++
        f (.formatter (display s)) := by
  have htable : (if options.unitTable then unitTable s else []).flatMap f = [] := by
    split
    · simp [unitTable, List.flatMap_map, hf.comment, hf.blank]
    · rfl
  have hlints : (allowedLints.map Item.allow).flatMap f = [] := by
    simp [List.flatMap_map, hf.allow]
  have haliases : (aliases s).flatMap f = [] := by
    simp [aliases, List.mapIdx_eq_zipIdx_map, List.flatMap_map, hf.typeAlias, hf.dimensionless,
      hf.blank]
  have hconstants : (constants s).flatMap f = [] := by
    simp [constants, constant, List.flatMap_map, hf.constant]
  have hcombinations (ops : List CombinationOperator) : (combinations s ops).flatMap f =
      ops.flatMap fun op => f (.operation (combination s op)) := by
    simp [combinations, List.flatMap_assoc, hf.blank]
  have hscalings (ops : List ScalarOperator) : (scalings s ops).flatMap f =
      ops.flatMap fun op => f (.operation (scaling s op)) := by
    simp [scalings, List.flatMap_assoc, hf.blank]
  simp only [items, header, formatter, List.flatMap_append, List.flatMap_cons, List.flatMap_nil,
    htable, hlints, haliases, hconstants, hcombinations, hscalings, hf.comment, hf.blank,
    List.nil_append, List.append_nil, List.append_assoc]

/-- A file imports the names of the runtime and the marker type. -/
theorem imported_items (s : Specification) (options : Options) :
    (items s options).flatMap Item.imported = runtimeNames ++ ["PhantomData"] := by
  rw [flatMap_binding_items Item.imported (by constructor <;> intros <;> rfl)]
  rfl

/-- How many parameters the items of a file bind, in the order of the items. -/
theorem length_parameters_items (s : Specification) (options : Options) :
    ((items s options).flatMap (·.parameters?.toList)).map List.length =
      [s.arity, s.arity, 2 * s.arity, 2 * s.arity, 2 * s.arity, s.arity + 1, s.arity + 1,
        s.arity] := by
  rw [flatMap_binding_items (·.parameters?.toList) (by constructor <;> intros <;> rfl)]
  simp [CombinationOperator.all, ScalarOperator.all, Item.parameters?, combination, scaling,
    display, suffixed, s.length_identifiers, Nat.two_mul]

/-- The items of a file that bind type parameters. -/
theorem mem_items_of_parameters (s : Specification) (options : Options) (item : Item)
    (hitem : item ∈ items s options) (hbinds : item.parameters?.isSome = true) :
    (item = .record s.name s.identifiers
        (s.baseUnits.map fun unit => (unit.constant, unit.identifier)) ∨
      item = .dimension s.identifiers (typeOfParameters s s.identifiers)) ∨
    (∃ op, item = .operation (combination s op)) ∨ (∃ op, item = .operation (scaling s op)) ∨
    item = .formatter (display s) := by
  have hmem : item ∈ (items s options).flatMap fun item =>
      if item.parameters?.isSome then [item] else [] :=
    List.mem_flatMap.mpr ⟨item, hitem, by simp [hbinds]⟩
  rw [flatMap_binding_items _ (by constructor <;> intros <;> rfl)] at hmem
  simp only [Item.parameters?, Option.isSome_some, Option.isSome_none, ↓reduceIte,
    Bool.false_eq_true, List.nil_append, List.mem_append, List.mem_cons, List.not_mem_nil,
    or_false, List.mem_flatMap, or_assoc] at hmem
  refine or_assoc.mpr (hmem.imp_right (Or.imp_right (Or.imp ?_ (Or.imp_left ?_))))
  · exact fun ⟨op, _, heq⟩ => ⟨op, heq⟩
  · exact fun ⟨op, _, heq⟩ => ⟨op, heq⟩

/-- An item of a file that binds type parameters binds names that are apart, and refers to nothing
that they could hide. Only an operator that scales a dimension binds the parameter of a scaling. -/
theorem areApart_of_mem_items (d : Definition) (limits : Limits) (s : Specification)
    (hs : d.validate limits = .ok s) (options : Options) (item : Item)
    (hitem : item ∈ items s options) (parameters : List String)
    (hparameters : item.parameters? = some parameters) :
    AreApart s parameters ∧ (∀ name ∈ item.names, IsReferred s name) ∧
      (scalarParameter ∈ parameters → ∃ op, item = .operation (scaling s op)) := by
  have hvalid := d.isValid_of_validate limits s hs
  have hunits := areApart_identifiers d limits s hs
  have hfree : scalarParameter ∉ s.identifiers := fun hmem =>
    hvalid.reserved _ hmem scalarParameter_mem_reserved
  have hbinds : item.parameters?.isSome = true := Option.isSome_of_eq_some hparameters
  rcases mem_items_of_parameters s options item hitem hbinds with
    (rfl | rfl) | ⟨op, rfl⟩ | ⟨op, rfl⟩ | rfl <;>
    obtain rfl := Option.some.inj hparameters
  case inl.inl =>
    refine ⟨hunits, ?_, fun hmem => absurd hmem hfree⟩
    simp only [Item.names, List.forall_mem_cons, List.not_mem_nil, false_imp_iff, implies_true,
      and_true]
    exact ⟨.inl rfl, isReferred_exponentBound s,
      isReferred_of_mem_reserved s _ (by decide) (by decide)⟩
  case inl.inr =>
    refine ⟨hunits, ?_, fun hmem => absurd hmem hfree⟩
    simp only [Item.names, names_typeOfParameters, List.forall_mem_append, List.forall_mem_cons,
      List.not_mem_nil, false_imp_iff, implies_true, and_true]
    exact ⟨⟨isReferred_of_mem_reserved s _ (by decide) (by decide), isReferred_exponentBound s⟩,
      .inl rfl⟩
  case inr.inl =>
    exact ⟨areApart_suffixed d limits s hs, isReferred_combination s op, fun hmem =>
      absurd hmem (reserved_notMem_suffixed s _ scalarParameter_mem_reserved)⟩
  case inr.inr.inl =>
    exact ⟨areApart_scaling d limits s hs, isReferred_scaling s op, fun _ => ⟨op, rfl⟩⟩
  case inr.inr.inr =>
    exact ⟨hunits, isReferred_display s, fun hmem => absurd hmem hfree⟩

end UnitSystems.Generated

namespace UnitSystems

open Generated

/-- The type parameters of a generated file are hygienic. Each item that binds parameters binds one
for each base unit, two for each or one for each and that of a scaling. They are distinct
identifiers that hide no type or trait of the item, and only a scaling binds its own parameter. The
types that a file declares and the names that it imports are distinct as well. -/
theorem parameters_hygienic (d : Definition) (limits : Limits) (s : Specification)
    (hs : d.validate limits = .ok s) (options : Options) :
    ((items s options).filterMap Item.parameters?).map List.length =
        [s.arity, s.arity, 2 * s.arity, 2 * s.arity, 2 * s.arity, s.arity + 1, s.arity + 1,
          s.arity] ∧
      (∀ item ∈ items s options, ∀ parameters ∈ item.parameters?, parameters.Nodup ∧
        (∀ name ∈ parameters, Names.isIdentifier name = true ∧ name ∉ item.names) ∧
        (scalarParameter ∈ parameters → ∃ op, item = .operation (scaling s op))) ∧
      ((items s options).flatMap Item.types ++ (items s options).flatMap Item.imported).Nodup := by
  have hvalid := d.isValid_of_validate limits s hs
  refine ⟨?_, fun item hitem parameters hparameters => ?_, ?_⟩
  · rw [← length_parameters_items s options, List.filterMap_eq_flatMap_toList]
  · obtain ⟨hapart, hreferred, hscaling⟩ :=
      areApart_of_mem_items d limits s hs options item hitem parameters hparameters
    exact ⟨hapart.distinct, fun name hname =>
      ⟨hapart.legal name hname, fun hmem => hapart.unreferred name hname (hreferred name hmem)⟩,
      hscaling⟩
  · have himported : ∀ name ∈ runtimeNames ++ ["PhantomData"],
        name ∈ Names.reserved ∧ name ≠ unitlessName := by decide
    rw [types_items, imported_items]
    refine List.nodup_append.mpr ⟨?_, by decide, ?_⟩
    · rw [List.nodup_cons, List.nodup_cons, List.mem_cons, not_or]
      have hunitless : unitlessName ∈ Names.reserved := by decide
      exact ⟨⟨fun heq => hvalid.reservedName (heq ▸ hunitless), hvalid.system⟩,
        fun hmem => hvalid.reserved _ hmem hunitless, hvalid.nodup⟩
    · rintro name hname _ hother rfl
      obtain ⟨hreserved, hne⟩ := himported name hother
      rw [List.mem_cons, List.mem_cons] at hname
      rcases hname with rfl | rfl | hunit
      · exact hvalid.reservedName hreserved
      · exact hne rfl
      · exact hvalid.reserved name hunit hreserved

/-- A system with a parameter that is named like a type of numbers. -/
def shortDefinition : Definition where
  name := "Short"
  units := ["f3", "i"]
  symbols := ["f", "i"]
  constants := ["one_f", "one_i"]

/-- Nothing is hidden by the parameters of a sum, one of which is called `f32`. -/
theorem parameters_hygienic_short : ∃ s, shortDefinition.validate {} = .ok s ∧
    ((items s {}).filterMap Item.parameters?).map List.length = [2, 2, 4, 4, 4, 3, 3, 2] ∧
    (["f31", "i1", "f32", "i2"].Nodup ∧
      ∀ name ∈ ["f31", "i1", "f32", "i2"], Names.isIdentifier name = true ∧
        name ∉ (combination s .add).names) ∧
    ((items s {}).flatMap Item.types ++ (items s {}).flatMap Item.imported).Nodup := by
  have hs : shortDefinition.validate {} = .ok (shortDefinition.toSpecification 1) :=
    eq_ok_of_toOption _ _ (by decide +kernel)
  obtain ⟨hlengths, hitems, hnodup⟩ := parameters_hygienic shortDefinition {} _ hs {}
  obtain ⟨hdistinct, hapart, -⟩ := hitems
    (.operation (combination (shortDefinition.toSpecification 1) .add)) (by decide +kernel)
    ["f31", "i1", "f32", "i2"] rfl
  exact ⟨_, hs, hlengths, ⟨hdistinct, hapart⟩, hnodup⟩

end UnitSystems
