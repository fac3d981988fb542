import UnitSystems.Display
import UnitSystems.Proofs.Expression.Value
import UnitSystems.Proofs.Grammar.Gap
import UnitSystems.Proofs.Validation.WellFormed

/-!
# Expressions that name one base unit

A name alone is an expression of one factor, and its value in a valid system that has the unit is
the dimension of the unit, which is shown as its symbol. Validation and the grammar disagree on
names, though: the words of a definition file are identifiers of the generated language, and none
of them is read as a name.
-/

namespace UnitSystems

open Grammar

namespace Expression

/-- The expression of a unit alone, named by a text. -/
def ofName (name : String) : Expression :=
  [(.times, ⟨.unit name, 1, 1, Span.covering {} name.toList⟩)]

/-- A name alone is read as one factor. -/
theorem read_expression_name (name : String) (hname : IsName name) :
    Form.expression.read name.toList = some ([.branch .expression
      [.plain [], .plain [], .branch .factor [.leaf .identifier name.toList, .plain []], .plain [],
        .plain [], .leaf .endOfText []]], []) := by
  have hidentifier := read_identifier name hname
  have hsolid : gap name.toList = ([], name.toList) := by
    have hstart := Form.identifier.isSolid_of_read (by decide) (by decide) _ _ hidentifier
    exact gap_of_isSolid _ hstart
  have hfactor : Form.factor.read name.toList =
      some ([.branch .factor [.leaf .identifier name.toList, .plain []]], []) :=
    Pattern.read_branch _ _ _ _ _ (Pattern.read_spaced _ _ _ [] [] [] [] _ []
      (Pattern.read_either_left _ _ _ _ hidentifier) rfl rfl)
  exact Pattern.read_branch _ _ _ _ _ (Pattern.read_spaced _ _ _ _ _ _ [] [.plain []] _ rfl hsolid
    (Pattern.read_spaced _ _ _ [] [] [] [] _ [.plain [], .leaf .endOfText []] hfactor rfl rfl))

/-- A name alone is the expression of this unit. -/
theorem parse_name (name : String) (hname : IsName name) :
    Expression.parse name = .ok (ofName name) := by
  have hparts : readBranch Form.expression name.toList sourceName = .ok
      [.plain [], .plain [], .branch .factor [.leaf .identifier name.toList, .plain []], .plain [],
        .plain [], .leaf .endOfText []] := by
    rw [readBranch, read_expression_name name hname]
  simp only [Expression.parse, hparts, bind, Except.bind, Except.mapError, located, readFactors,
    readFactor, readPower, Except.map, Piece.text, Piece.textOf, Place.after_nil, List.append_nil,
    String.ofList_toList, ofName]

/-- A word of definition files is no expression. -/
theorem parse_keyword (word : String) (hword : word ∈ Grammar.keywords) :
    ∃ complaint, Expression.parse word = .error (.parse complaint word) := by
  have hnone : ∀ word ∈ Grammar.keywords, (Form.expression.read word.toList).isNone = true := by
    decide +kernel
  have hread := Option.isNone_iff_eq_none.mp (hnone word hword)
  exact ⟨syntaxComplaint Form.expression word.toList sourceName, by
    simp only [Expression.parse, readBranch, hread, bind, Except.bind, Except.mapError]⟩

/-- A base unit alone has its dimension as the value, when the root fits. -/
theorem evaluate_ofName (s : Specification) (hs : s.identifiers.Nodup) (name : String)
    (hname : name ≠ unitlessName) (position : Nat)
    (hposition : s.identifiers[position]? = some name) (hroot : Fits s.allowedRoot.toNat)
    (v : Dimension)
    (hv : v.values = (List.replicate s.arity 0).set position (s.allowedRoot.toNat : Int)) :
    Expression.evaluate s (ofName name) = .ok v := by
  have hunit : unitName? ⟨.unit name, 1, 1, Span.covering {} name.toList⟩ = some name :=
    if_neg hname
  have hone : (1 : Int32).toInt = 1 := by decide
  have hpositive : ∀ term ∈ ofName name, 0 < term.2.denominator.toInt := by
    simp only [ofName, List.forall_mem_singleton, hone, Int.one_pos]
  have htotal (unit : String) : total s unit (ofName name) =
      if some name = some unit then (s.allowedRoot.toNat : Int) else 0 := by
    simp only [ofName, total, signed, share, hunit, scaled, hone, Int.mul_one, Int.ediv_one,
      Int.add_zero]
  have hvalues : v.values = s.identifiers.map fun unit => total s unit (ofName name) := by
    rw [hv, ← s.length_identifiers, replicate_set_eq_map s.identifiers hs name position hposition]
    exact List.map_congr_left fun unit _ => (htotal unit).symm
  have hown : ownFailure? s ⟨.unit name, 1, 1, Span.covering {} name.toList⟩ = none := by
    rw [ownFailure?_eq_none_iff, hunit]
    simp only [scaled, hone, Int.mul_one, Int.one_dvd, Option.mem_some_iff, forall_eq']
    exact ⟨List.mem_of_getElem? hposition, fun _ => hroot, fun _ => hroot, fun _ => trivial⟩
  have hfits : ∀ unit ∈ s.identifiers, Fits (total s unit (ofName name)) := by
    rw [← List.forall_mem_map, ← hvalues]
    exact v.fits_of_mem_values
  have hvalue : HasValue s (ofName name) := by
    refine (hasValue_concat_iff s [] .times _).mpr ⟨hasValue_nil s, ?_⟩
    simp only [failure?, hown]
    exact if_pos hfits
  exact (evaluate_eq_ok_iff s hs (ofName name) hpositive v).mpr ⟨hvalue, hvalues⟩

end Expression

/-- Zeros show nothing. -/
theorem formatExponents_zeros (root : UInt32) (units : List BaseUnit) (exponents : List Int32)
    (h : exponents.map Int32.toInt = List.replicate units.length 0) :
    formatExponents root units exponents = "" := by
  induction units generalizing exponents with
  | nil => rfl
  | cons unit units ih =>
    obtain ⟨first, rest, rfl, hfirst, hrest⟩ := List.map_eq_cons_iff.mp h
    rw [formatExponents, ih rest hrest, formatExponent, if_pos hfirst, String.append_empty]

/-- The root at the position of a base unit, and zeros elsewhere, show its symbol. -/
theorem formatExponents_unit (root : UInt32) (hroot : 0 < root.toNat) (units : List BaseUnit)
    (exponents : List Int32) (position : Nat) (unit : BaseUnit)
    (hunit : units[position]? = some unit)
    (h : exponents.map Int32.toInt =
      (List.replicate units.length 0).set position (root.toNat : Int)) :
    formatExponents root units exponents = unit.symbol := by
  induction units generalizing exponents position with
  | nil => contradiction
  | cons first units ih =>
    cases position with
    | zero =>
      obtain rfl : first = unit := Option.some.inj hunit
      obtain ⟨whole, zeros, rfl, hwhole, hzeros⟩ := List.map_eq_cons_iff.mp h
      rw [formatExponents, formatExponents_zeros root units zeros hzeros, formatExponent,
        if_neg (by omega), if_pos hwhole, String.append_empty]
    | succ position =>
      obtain ⟨zero, rest, rfl, hzero, hrest⟩ := List.map_eq_cons_iff.mp h
      rw [formatExponents, ih rest position hunit hrest, formatExponent, if_pos hzero,
        String.empty_append]

/-- A base unit of a valid system can be named in an expression exactly when its name is no word of
definition files. Then the value is the dimension of the unit, which is shown as its symbol. The
name of any other base unit is not even an expression. -/
theorem evaluate_unit_iff (d : Definition) (s : Specification) (hs : d.validate {} = .ok s)
    (position : Nat) (unit : BaseUnit) (hunit : s.baseUnits[position]? = some unit) :
    ((∃ v, s.evaluate unit.identifier = .ok v ∧ s.unitDimension position = .ok v ∧
        s.format v = .ok unit.symbol) ↔ unit.identifier ∉ Grammar.keywords) ∧
      ((∃ complaint, s.evaluate unit.identifier = .error (.parse complaint unit.identifier)) ↔
        unit.identifier ∈ Grammar.keywords) := by
  have hvalid := d.isValid_of_validate {} s hs
  have hidentifier : s.identifiers[position]? = some unit.identifier := by
    rw [Specification.identifiers, List.getElem?_map, hunit, Option.map_some]
  have hmem := List.mem_of_getElem? hidentifier
  have hok (hfree : unit.identifier ∉ Grammar.keywords) : ∃ v,
      s.evaluate unit.identifier = .ok v ∧ s.unitDimension position = .ok v ∧
        s.format v = .ok unit.symbol := by
    have hword := hvalid.identifiers _ hmem
    simp only [Names.isIdentifier, Bool.and_eq_true] at hword
    have hname : unit.identifier ≠ unitlessName := fun heq =>
      hvalid.reserved _ hmem (heq ▸ by decide)
    have hroot := d.allowedRoot_le_of_validate {} s hs
    have hfits : Fits s.allowedRoot.toNat := by
      have hdefault : (({} : Limits).maxAllowedRoot.toNat : Nat) = 32 := rfl
      rw [Fits, Int32.toInt_minValue, Int32.toInt_maxValue]
      omega
    obtain ⟨hposition, -⟩ := List.getElem?_eq_some_iff.mp hunit
    obtain ⟨v, hv, hvalues⟩ := Expression.unitDimension_ok s position hposition hfits
    have hevaluate := Expression.evaluate_ofName s hvalid.nodup unit.identifier hname position
      hidentifier hfits v hvalues
    refine ⟨v, ?_, hv, ?_⟩
    · rw [Expression.evaluate_of_parse s _ _ (Expression.parse_name _ ⟨hword.1.2, hfree⟩),
        hevaluate]
      rfl
    · have harity : v.arity = s.arity := by
        rw [← v.length_values, hvalues, List.length_set, List.length_replicate]
      rw [Specification.format, if_pos harity, formatExponents_unit s.allowedRoot hvalid.root
        s.baseUnits v.exponents position unit hunit hvalues]
  have herror (hword : unit.identifier ∈ Grammar.keywords) : ∃ complaint,
      s.evaluate unit.identifier = .error (.parse complaint unit.identifier) := by
    obtain ⟨complaint, hparse⟩ := Expression.parse_keyword unit.identifier hword
    exact ⟨complaint, by rw [Specification.evaluate, hparse]; rfl⟩
  refine ⟨⟨?_, hok⟩, ⟨?_, herror⟩⟩
  · rintro ⟨v, hv, -⟩ hword
    obtain ⟨complaint, hcomplaint⟩ := herror hword
    rw [hv] at hcomplaint
    contradiction
  · rintro ⟨complaint, hcomplaint⟩
    by_contra hfree
    obtain ⟨v, hv, -⟩ := hok hfree
    rw [hv] at hcomplaint
    contradiction

/-- The second base unit of a system can be named. -/
theorem evaluate_unit_iff_motion :
    ∃ s, motionDefinition.validate {} = .ok s ∧ ∃ unit, s.baseUnits[1]? = some unit ∧
      ∃ v, s.evaluate unit.identifier = .ok v ∧ s.unitDimension 1 = .ok v ∧
        s.format v = .ok unit.symbol := by
  refine ⟨_, validate_motionDefinition, ⟨"Second", "s", "second"⟩, rfl, ?_⟩
  exact (evaluate_unit_iff motionDefinition _ validate_motionDefinition 1 ⟨"Second", "s", "second"⟩
    rfl).1.mpr (by decide)

/-- A system with one base unit that is called like the directive for the allowed root. -/
def rootUnitDefinition : Definition where
  name := "Test"
  units := ["root"]
  symbols := ["r"]
  constants := ["r0"]

/-- Nothing is wrong with this system, and its base unit cannot be named in an expression. -/
theorem evaluate_root_unit :
    ∃ s, rootUnitDefinition.validate {} = .ok s ∧
      s.baseUnits[0]? = some ⟨"root", "r", "r0"⟩ ∧ ∀ v, s.evaluate "root" ≠ .ok v := by
  refine ⟨rootUnitDefinition.toSpecification 1, eq_ok_of_toOption _ _ (by decide +kernel), rfl,
    fun v hv => ?_⟩
  obtain ⟨complaint, hparse⟩ := Expression.parse_keyword "root" (by decide)
  rw [Specification.evaluate, hparse] at hv
  contradiction

end UnitSystems
