import UnitSystems.Proofs.Error
import UnitSystems.Proofs.Outcome
import UnitSystems.Validation

/-!
# What validation ensures

A specification that a definition was turned into has base units with distinct names. Each name
is an identifier, and the generated file uses none of them for itself. Symbols hold no controls
and the root is positive.
-/

namespace UnitSystems

/-- Specifications in which nothing is wrong. -/
structure Specification.IsValid (s : Specification) : Prop where
  /-- The system has a name of the generated language. -/
  name : Names.isIdentifier s.name = true
  /-- The generated file does not use the name of the system for itself. -/
  reservedName : s.name ∉ Names.reserved
  /-- No type parameter of a combination is named like the system. -/
  parameters : ∀ unit ∈ s.identifiers,
    s.name ≠ unit ++ Names.leftSuffix ∧ s.name ≠ unit ++ Names.rightSuffix
  /-- There is a base unit. -/
  nonempty : s.identifiers ≠ []
  /-- The names of the base units are distinct. -/
  nodup : s.identifiers.Nodup
  /-- The base units have names of the generated language. -/
  identifiers : ∀ unit ∈ s.identifiers, Names.isIdentifier unit = true
  /-- The generated file uses no name of a base unit for itself. -/
  reserved : ∀ unit ∈ s.identifiers, unit ∉ Names.reserved
  /-- No base unit is named like the system. -/
  system : s.name ∉ s.identifiers
  /-- Symbols hold no controls. -/
  symbols : ∀ unit ∈ s.baseUnits, ∀ c ∈ unit.symbol.toList, Text.isControl c = false
  /-- The root is positive. -/
  root : 0 < s.allowedRoot.toNat

/-- There are as many identifiers as base units. -/
theorem Specification.length_identifiers (s : Specification) : s.identifiers.length = s.arity :=
  List.length_map _

namespace Definition

/-- Base units have the names of the first list with the constants of the third. -/
theorem map_zipUnits (units symbols constants : List String)
    (hsymbols : units.length = symbols.length) (hconstants : units.length = constants.length) :
    (zipUnits units symbols constants).map (fun unit => (unit.identifier, unit.constant)) =
      units.zip constants := by
  induction units generalizing symbols constants with
  | nil => rfl
  | cons unit units ih =>
    match symbols, constants, hsymbols, hconstants with
    | symbol :: symbols, constant :: constants, hsymbols, hconstants =>
      rw [List.length_cons, List.length_cons, Nat.add_right_cancel_iff] at hsymbols hconstants
      rw [zipUnits, List.map_cons, ih symbols constants hsymbols hconstants, List.zip_cons_cons]

/-- Base units have the names of the first list. -/
theorem identifiers_zipUnits (units symbols constants : List String)
    (hsymbols : units.length = symbols.length) (hconstants : units.length = constants.length) :
    (zipUnits units symbols constants).map (·.identifier) = units := by
  have hnames := congrArg (List.map Prod.fst)
    (map_zipUnits units symbols constants hsymbols hconstants)
  rwa [List.map_map, List.map_fst_zip (Nat.le_of_eq hconstants)] at hnames

/-- Base units have the constants of the third list. -/
theorem constants_zipUnits (units symbols constants : List String)
    (hsymbols : units.length = symbols.length) (hconstants : units.length = constants.length) :
    (zipUnits units symbols constants).map (·.constant) = constants := by
  have hnames := congrArg (List.map Prod.snd)
    (map_zipUnits units symbols constants hsymbols hconstants)
  rwa [List.map_map, List.map_snd_zip (Nat.le_of_eq hconstants.symm)] at hnames

/-- Base units have symbols of the second list. -/
theorem symbol_mem_of_mem_zipUnits (units symbols constants : List String) (unit : BaseUnit)
    (h : unit ∈ zipUnits units symbols constants) : unit.symbol ∈ symbols := by
  induction units generalizing symbols constants with
  | nil => simp [zipUnits] at h
  | cons first units ih =>
    match symbols, constants, h with
    | symbol :: symbols, constant :: constants, h =>
      rw [zipUnits, List.mem_cons] at h
      rcases h with rfl | h
      · exact List.mem_cons_self
      · exact List.mem_cons_of_mem _ (ih symbols constants h)

/-- Names are distinct and new, whatever else is asked of them, when the first one is new and the
others are distinct and new after it. -/
theorem nodup_fresh_cons_iff (p : String → Prop) (seen names : List String) (name : String) :
    ((name :: names).Nodup ∧ ∀ other ∈ name :: names, other ∉ seen ∧ p other) ↔
      (p name ∧ name ∉ seen) ∧
        names.Nodup ∧ ∀ other ∈ names, other ∉ name :: seen ∧ p other := by
  rw [List.nodup_cons, List.forall_mem_cons]
  constructor
  · rintro ⟨⟨hname, hnodup⟩, hfirst, hothers⟩
    refine ⟨hfirst.symm, hnodup, fun other hother => ⟨?_, (hothers other hother).2⟩⟩
    rw [List.mem_cons, not_or]
    exact ⟨fun heq => hname (heq ▸ hother), (hothers other hother).1⟩
  · rintro ⟨hfirst, hnodup, hothers⟩
    refine ⟨⟨fun hmem => (hothers name hmem).1 List.mem_cons_self, hnodup⟩, hfirst.symm,
      fun other hother => ⟨?_, (hothers other hother).2⟩⟩
    exact fun hseen => (hothers other hother).1 (List.mem_cons_of_mem _ hseen)

/-- The name of a unit has no defect exactly when it can be declared. -/
theorem unitNameDefects_eq_nil_iff (d : Definition) (unit : String) : d.unitNameDefects unit = [] ↔
    Names.isIdentifier unit = true ∧ d.isReservedUnit unit = false := by
  unfold unitNameDefects
  cases Names.isIdentifier unit <;> cases d.isReservedUnit unit <;> simp

/-- Units have no defects exactly when they are distinct from one another and from those before
them, and each of them can be declared. -/
theorem unitDefects_eq_nil_iff (d : Definition) (seen units : List String) :
    d.unitDefects seen units = [] ↔ units.Nodup ∧ ∀ unit ∈ units,
      unit ∉ seen ∧ Names.isIdentifier unit = true ∧ d.isReservedUnit unit = false := by
  induction units generalizing seen with
  | nil => simp [unitDefects]
  | cons unit units ih =>
    rw [nodup_fresh_cons_iff, ← ih, ← d.unitNameDefects_eq_nil_iff]
    simp [unitDefects, and_assoc]

/-- Lists have no defect exactly when they have one length and hold something. -/
theorem listDefect_eq_none_iff (d : Definition) : d.listDefect = none ↔
    d.units.length = d.symbols.length ∧ d.units.length = d.constants.length ∧ d.units ≠ [] := by
  unfold listDefect
  dsimp only
  split
  · next hlengths =>
    exact iff_of_false (by simp) fun h => hlengths.elim (absurd h.1) (absurd h.2.1)
  · next hlengths =>
    rw [not_or, Decidable.not_not, Decidable.not_not] at hlengths
    rw [and_iff_right hlengths.1, and_iff_right hlengths.2]
    simp

/-- The name of a system has no defect exactly when it can be declared and no type parameter has
it. -/
theorem nameDefects_eq_nil_iff (d : Definition) : d.nameDefects = [] ↔
    Names.isIdentifier d.name = true ∧ Names.isReserved d.name d.scalarType = false ∧
      ∀ unit ∈ d.units, d.name ≠ unit ++ Names.leftSuffix ∧ d.name ≠ unit ++ Names.rightSuffix := by
  have hclash : d.clashingUnit? = none ↔
      ∀ unit ∈ d.units, d.name ≠ unit ++ Names.leftSuffix ∧ d.name ≠ unit ++ Names.rightSuffix := by
    simp [clashingUnit?, List.find?_eq_none]
  unfold nameDefects
  rw [← hclash]
  cases Names.isIdentifier d.name <;> cases Names.isReserved d.name d.scalarType <;>
    cases d.clashingUnit? <;> simp

/-- A definition becomes a specification exactly when nothing is found on the way. -/
theorem validate_eq_ok_iff (d : Definition) (limits : Limits) (s : Specification) :
    d.validate limits = .ok s ↔ d.listDefect = none ∧ d.limitError limits = none ∧
      d.defects = [] ∧ ∃ root, d.root32? = some root ∧ s = d.toSpecification root := by
  have hcollect : Error.collect (d.defects.map defectError) = none ↔ d.defects = [] := by
    rw [Error.collect_eq_none_iff, List.map_eq_nil_iff]
  rw [← hcollect]
  unfold validate
  cases d.listDefect <;> cases d.limitError limits <;>
    cases Error.collect (d.defects.map defectError) <;> cases d.root32? <;> simp [eq_comm]

/-- Symbols have no defects exactly when they hold no controls. -/
theorem symbolDefects_eq_nil_iff (d : Definition) : d.symbolDefects = [] ↔
    ∀ symbol ∈ d.symbols, ∀ c ∈ symbol.toList, Text.isControl c = false := by
  simp [symbolDefects]

/-- A 32-bit root is found exactly when it equals the allowed root. -/
theorem root32?_eq_some_iff (d : Definition) (root : UInt32) :
    d.root32? = some root ↔ d.allowedRoot.toInt = root.toNat := by
  have hsize := root.toNat_lt_size
  unfold root32?
  constructor
  · intro h
    split at h
    · next hfits =>
      obtain rfl := Option.some.inj h
      rw [UInt32.toNat_ofNat_of_lt' (by omega)]
      omega
    · contradiction
  · intro h
    rw [if_pos (by omega), h, Int.toNat_natCast, UInt32.ofNat_toNat]

/-- Nothing is wrong with a specification that a definition was turned into. -/
theorem isValid_of_validate (d : Definition) (limits : Limits) (s : Specification)
    (h : d.validate limits = .ok s) : s.IsValid := by
  obtain ⟨hlists, -, hdefects, root, hroot, rfl⟩ := (d.validate_eq_ok_iff limits s).mp h
  have hlengths := d.listDefect_eq_none_iff.mp hlists
  have hidentifiers : (d.toSpecification root).identifiers = d.units :=
    identifiers_zipUnits d.units d.symbols d.constants hlengths.1 hlengths.2.1
  simp only [defects, fieldDefects, List.append_eq_nil_iff] at hdefects
  obtain ⟨⟨⟨⟨⟨⟨⟨hname, hsmall⟩, -⟩, -⟩, -⟩, hunits⟩, hsymbols⟩, -⟩ := hdefects
  obtain ⟨hsystem, hfree, hparameters⟩ := d.nameDefects_eq_nil_iff.mp hname
  obtain ⟨hnodup, hunits⟩ := (d.unitDefects_eq_nil_iff [] d.units).mp hunits
  have hreserved (name : String) (h : Names.isReserved name d.scalarType = false) :
      name ∉ Names.reserved := by
    rw [Names.isReserved, Bool.or_eq_false_iff, Bool.or_eq_false_iff] at h
    simpa using h.1.1
  refine
    { name := hsystem
      reservedName := hreserved _ hfree
      nonempty := hidentifiers ▸ hlengths.2.2
      parameters := hidentifiers ▸ hparameters
      nodup := hidentifiers ▸ hnodup
      identifiers := hidentifiers ▸ fun unit hunit => (hunits unit hunit).2.1
      reserved := hidentifiers ▸ fun unit hunit => ?_
      system := hidentifiers ▸ fun hmem => ?_
      symbols := fun unit hunit c hc => ?_
      root := ?_ }
  · have hfree := (hunits unit hunit).2.2
    rw [isReservedUnit, Bool.or_eq_false_iff] at hfree
    exact hreserved unit hfree.1
  · have hfree := (hunits _ hmem).2.2
    simp [isReservedUnit, toSpecification] at hfree
  · have hsymbol := symbol_mem_of_mem_zipUnits _ _ _ unit hunit
    exact d.symbolDefects_eq_nil_iff.mp hsymbols unit.symbol hsymbol c hc
  · have hequal := (d.root32?_eq_some_iff root).mp hroot
    have hone : 1 ≤ d.allowedRoot.toInt := by
      split at hsmall
      · contradiction
      · omega
    show 0 < root.toNat
    omega

end Definition

/-- A system of two base units with sixths as exponents. -/
def motionDefinition : Definition where
  name := "Motion"
  units := ["Metre", "Second"]
  symbols := ["m", "s"]
  constants := ["metre", "second"]
  allowedRoot := 6

/-- Nothing is wrong with this system. -/
theorem validate_motionDefinition :
    motionDefinition.validate {} = .ok (motionDefinition.toSpecification 6) :=
  eq_ok_of_toOption _ _ (by decide +kernel)

end UnitSystems
