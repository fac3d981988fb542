import Mathlib.Data.List.Forall2
import Mathlib.Data.List.Nodup
import UnitSystems.Proofs.Dimension.Rules
import UnitSystems.Proofs.Generated.Denotation

/-!
# What the generated operators compute

An implementation applies where its parameters can be given integers that make its operands the
given ones and all its conditions hold. The traits on single exponents come from a runtime that
is not part of the generated file: it is assumed to compute what their names say. Under this
assumption the generated operators and the operators on dimensions agree, whenever the latter do
not overflow.
-/

namespace UnitSystems.Generated

/-- Runtimes whose traits compute what their names say. -/
structure Runtime.IsExact (r : Runtime) : Prop where
  peano : ∀ m, r.has "Peano" m
  keep : ∀ m n, r.output? "KeepPeano" m n = if m = n then some m else none
  add : ∀ m n, r.output? "AddPeano" m n = some (m + n)
  sub : ∀ m n, r.output? "SubPeano" m n = some (m - n)
  mul : ∀ m n, r.output? "MulPeano" m n = some (m * n)
  div : ∀ m n, r.output? "DivPeano" m n = if n ≠ 0 ∧ n ∣ m then some (m / n) else none

/-- The runtime with the traits of the operators. -/
def exactRuntime : Runtime where
  has name _ := name = "Peano"
  output? name m n :=
    if name = "KeepPeano" then if m = n then some m else none
    else if name = "AddPeano" then some (m + n)
    else if name = "SubPeano" then some (m - n)
    else if name = "MulPeano" then some (m * n)
    else if name = "DivPeano" then if n ≠ 0 ∧ n ∣ m then some (m / n) else none
    else none

/-- The traits of the operators compute what their names say. -/
theorem isExact_exactRuntime : exactRuntime.IsExact where
  peano _ := rfl
  keep _ _ := rfl
  add _ _ := rfl
  sub _ _ := rfl
  mul _ _ := rfl
  div _ _ := rfl

/-- What stands on the right of an operator. -/
inductive Right
  | dimension (d : Dimension)
  | integer (k : Int32)

/-- An operand is what stands on the right. -/
def Operand.Is (r : Runtime) (σ : Substitution) (system : String) : Operand → Right → Prop
  | dimension type, .dimension d => type.Denotes r σ system d
  | parameter name, .integer k => σ name = some k.toInt
  | _, _ => False

/-- An implementation for a system matches two operands: exactly its parameters are given
integers, none of them hides its trait, its target denotes the left operand and its operand is the
right one. -/
structure Operation.Matches (r : Runtime) (σ : Substitution) (o : Operation) (system : String)
    (left : Dimension) (right : Right) : Prop where
  parameters : ∀ name, (σ name).isSome = true ↔ name ∈ o.parameters
  visible : σ o.dimensionTrait = none
  target : o.target.Denotes r σ system left
  operand : o.operand.Is r σ system right

/-- An implementation agrees with the outcome of an operator on two operands: it matches them, its
conditions hold exactly when the operator does not refuse the operands, and its output denotes the
result. -/
def Operation.Agrees (r : Runtime) (o : Operation) (system : String) (left : Dimension)
    (right : Right) (outcome : Except DimensionError Dimension) : Prop :=
  (∃ σ, o.Matches r σ system left right) ∧ ∀ σ, o.Matches r σ system left right →
    ((∀ b ∈ o.bounds, b.Holds r σ) ↔ Accepts outcome) ∧
      ∀ d, outcome = .ok d → o.output.Denotes r σ system d

/-- A runtime computes the rules of the operators between exponents. -/
theorem Runtime.IsExact.combination (r : Runtime) (hr : r.IsExact) (op : CombinationOperator)
    (m n : Int) : r.output? op.exponentTrait m n = op.rule m n := by
  cases op with
  | keep => exact hr.keep m n
  | add => exact hr.add m n
  | sub => exact hr.sub m n

/-- A runtime computes the rules of the operators that scale an exponent. -/
theorem Runtime.IsExact.scaling (r : Runtime) (hr : r.IsExact) (op : ScalarOperator) (m n : Int) :
    r.output? op.exponentTrait m n = op.rule m n := by
  cases op with
  | mul => exact hr.mul m n
  | div => exact hr.div m n

section

variable (r : Runtime) (hr : r.IsExact) (σ : Substitution)

/-- The output of a trait between two parameters. -/
theorem value?_projection (left exponentTrait right : String) (m n : Int)
    (htrait : σ exponentTrait = none) (hleft : σ left = some m) (hright : σ right = some n) :
    (Argument.projection left exponentTrait right).value? r σ = r.output? exponentTrait m n := by
  simp only [Argument.value?, htrait, hleft, hright]

include hr

variable (hbound : σ exponentBound = none)

include hbound

/-- Every integer is an exponent. -/
theorem holds_exponentBound (m : Int) : Trait.Holds r σ ⟨exponentBound, none⟩ m :=
  ⟨hbound, hr.peano m⟩

/-- Every parameter with an integer is an exponent. -/
theorem holds_parameter (name : String) (m : Int) (hname : σ name = some m) :
    Bound.Holds r σ ⟨.parameter name, [⟨exponentBound, none⟩]⟩ := by
  refine ⟨m, hname, fun t ht => ?_⟩
  obtain rfl := List.mem_singleton.mp ht
  exact holds_exponentBound r hr σ hbound m

/-- A parameter is an exponent with a trait exactly when the trait has an output. -/
theorem holds_operand_iff (left exponentTrait right : String) (m n : Int)
    (htrait : σ exponentTrait = none) (hleft : σ left = some m) (hright : σ right = some n) :
    Bound.Holds r σ ⟨.parameter left, [⟨exponentBound, none⟩, ⟨exponentTrait, some right⟩]⟩ ↔
      (r.output? exponentTrait m n).isSome = true := by
  simp only [Bound.Holds, Argument.value?, hleft, Option.some.injEq, exists_eq_left',
    List.forall_mem_cons, List.not_mem_nil, false_imp_iff, implies_true, and_true,
    holds_exponentBound r hr σ hbound m, true_and]
  simp only [Trait.Holds, htrait, hright, Option.some.injEq, exists_eq_left', true_and]

/-- The output of a trait is an exponent exactly when there is an output. -/
theorem holds_output_iff (left exponentTrait right : String) (m n : Int)
    (htrait : σ exponentTrait = none) (hleft : σ left = some m) (hright : σ right = some n) :
    Bound.Holds r σ ⟨.projection left exponentTrait right, [⟨exponentBound, none⟩]⟩ ↔
      (r.output? exponentTrait m n).isSome = true := by
  rw [Bound.Holds, value?_projection r σ left exponentTrait right m n htrait hleft hright,
    Option.isSome_iff_exists]
  refine exists_congr fun value => and_iff_left fun t ht => ?_
  obtain rfl := List.mem_singleton.mp ht
  exact holds_exponentBound r hr σ hbound value

/-- The conditions on pairs of parameters and on their outputs hold exactly when every pair has an
output, if the conditions between them hold. -/
theorem holds_pairs_iff (exponentTrait : String) (htrait : σ exponentTrait = none)
    (units : List String) (left right : String → String) (m n : String → Int)
    (hleft : ∀ unit ∈ units, σ (left unit) = some (m unit))
    (hright : ∀ unit ∈ units, σ (right unit) = some (n unit)) (middle : List Bound)
    (hmiddle : ∀ b ∈ middle, b.Holds r σ) :
    (∀ b ∈ units.map (fun unit => (⟨.parameter (left unit),
          [⟨exponentBound, none⟩, ⟨exponentTrait, some (right unit)⟩]⟩ : Bound)) ++ middle ++
        units.map (fun unit => (⟨.projection (left unit) exponentTrait (right unit),
          [⟨exponentBound, none⟩]⟩ : Bound)), b.Holds r σ) ↔
      ∀ unit ∈ units, (r.output? exponentTrait (m unit) (n unit)).isSome = true := by
  simp only [List.forall_mem_append, List.forall_mem_map]
  constructor
  · rintro ⟨⟨h, -⟩, -⟩ unit hunit
    exact (holds_operand_iff r hr σ hbound _ _ _ _ _ htrait (hleft unit hunit) (hright unit hunit)).mp
      (h unit hunit)
  · intro h
    refine ⟨⟨fun unit hunit => ?_, hmiddle⟩, fun unit hunit => ?_⟩
    · exact (holds_operand_iff r hr σ hbound _ _ _ _ _ htrait (hleft unit hunit) (hright unit hunit)).mpr
        (h unit hunit)
    · exact (holds_output_iff r hr σ hbound _ _ _ _ _ htrait (hleft unit hunit) (hright unit hunit)).mpr
        (h unit hunit)

end

/-- The conditions of an operator between two dimensions, unit by unit. -/
theorem combination_bounds (s : Specification) (op : CombinationOperator) :
    (combination s op).bounds =
      s.identifiers.map (fun unit => (⟨.parameter (unit ++ Names.leftSuffix),
        [⟨exponentBound, none⟩, ⟨op.exponentTrait, some (unit ++ Names.rightSuffix)⟩]⟩ : Bound)) ++
      s.identifiers.map (fun unit =>
        (⟨.parameter (unit ++ Names.rightSuffix), [⟨exponentBound, none⟩]⟩ : Bound)) ++
      s.identifiers.map (fun unit => (⟨.projection (unit ++ Names.leftSuffix) op.exponentTrait
        (unit ++ Names.rightSuffix), [⟨exponentBound, none⟩]⟩ : Bound)) := by
  simp only [combination, suffixed, List.zipWith_map, List.zipWith_self, List.map_map]
  rfl

/-- The output of an operator between two dimensions, unit by unit. -/
theorem combination_output (s : Specification) (op : CombinationOperator) :
    (combination s op).output = typeOf s (s.identifiers.map fun unit =>
      .projection (unit ++ Names.leftSuffix) op.exponentTrait (unit ++ Names.rightSuffix)) := by
  simp only [combination, suffixed, List.zipWith_map, List.zipWith_self]

/-- The conditions of an operator that scales a dimension, unit by unit. -/
theorem scaling_bounds (s : Specification) (op : ScalarOperator) :
    (scaling s op).bounds =
      s.identifiers.map (fun unit => (⟨.parameter unit,
        [⟨exponentBound, none⟩, ⟨op.exponentTrait, some scalarParameter⟩]⟩ : Bound)) ++
      [⟨.parameter scalarParameter, [⟨exponentBound, none⟩]⟩] ++
      s.identifiers.map (fun unit => (⟨.projection unit op.exponentTrait scalarParameter,
        [⟨exponentBound, none⟩]⟩ : Bound)) := by
  simp only [scaling, List.map_map]
  rfl

/-- The parameters of the two operands are distinct. -/
theorem nodup_suffixed (s : Specification) (hs : s.identifiers.Nodup) :
    (suffixed s Names.leftSuffix ++ suffixed s Names.rightSuffix).Nodup := by
  have hinjective (suffix : String) : Function.Injective (fun name : String => name ++ suffix) := by
    intro first second h
    have htoList := congrArg String.toList h
    simp only [String.toList_append] at htoList
    exact String.toList_inj.mp (List.append_cancel_right htoList)
  refine List.nodup_append.mpr ⟨List.Nodup.map (hinjective _) hs,
    List.Nodup.map (hinjective _) hs, ?_⟩
  intro left hleft right hright heq
  obtain ⟨first, -, rfl⟩ := List.mem_map.mp hleft
  obtain ⟨second, -, rfl⟩ := List.mem_map.mp hright
  have hlast := congrArg (fun name => name.toList.getLast?) heq
  simp [Names.leftSuffix, Names.rightSuffix, String.toList_append] at hlast

/-- The system is none of the parameters of two operands. -/
theorem name_notMem_suffixed (s : Specification) (hs : s.IsValid) :
    s.name ∉ suffixed s Names.leftSuffix ++ suffixed s Names.rightSuffix := by
  rw [List.mem_append, suffixed, suffixed]
  rintro (hmem | hmem)
  · obtain ⟨unit, hunit, heq⟩ := List.mem_map.mp hmem
    exact (hs.parameters unit hunit).1 heq.symm
  · obtain ⟨unit, hunit, heq⟩ := List.mem_map.mp hmem
    exact (hs.parameters unit hunit).2 heq.symm

/-- No parameter of two operands hides a name that the generated file uses. -/
theorem reserved_notMem_suffixed (s : Specification) (name : String)
    (hname : name ∈ Names.reserved) :
    name ∉ suffixed s Names.leftSuffix ++ suffixed s Names.rightSuffix := by
  have hlast : ∀ name ∈ Names.reserved, name.toList.getLast? ≠ some '1' ∧
      name.toList.getLast? ≠ some '2' := by decide
  rw [List.mem_append, suffixed, suffixed]
  rintro (hmem | hmem)
  · obtain ⟨unit, -, rfl⟩ := List.mem_map.mp hmem
    exact (hlast _ hname).1 (by simp [Names.leftSuffix, String.toList_append])
  · obtain ⟨unit, -, rfl⟩ := List.mem_map.mp hmem
    exact (hlast _ hname).2 (by simp [Names.rightSuffix, String.toList_append])

/-- The traits of an operator between two dimensions are used by the generated file. -/
theorem combination_traits_mem_reserved (op : CombinationOperator) :
    op.exponentTrait ∈ Names.reserved ∧ op.dimensionTrait ∈ Names.reserved := by
  cases op <;> decide

/-- The traits of an operator that scales a dimension are used by the generated file. -/
theorem scaling_traits_mem_reserved (op : ScalarOperator) :
    op.exponentTrait ∈ Names.reserved ∧ op.dimensionTrait ∈ Names.reserved := by
  cases op <;> decide

/-- The bound of exponents is used by the generated file. -/
theorem exponentBound_mem_reserved : exponentBound ∈ Names.reserved := by decide

/-- Every pair of dimensions is matched by the block of an operator between two dimensions. -/
theorem exists_matches_combination (r : Runtime) (s : Specification) (hs : s.IsValid)
    (op : CombinationOperator) (a b : Dimension) (ha : a.arity = s.arity) (hb : b.arity = s.arity) :
    ∃ σ, (combination s op).Matches r σ s.name a (.dimension b) := by
  have hlengths (suffix : String) (d : Dimension) (hd : d.arity = s.arity) :
      (suffixed s suffix).length = d.values.length := by
    rw [suffixed, List.length_map, d.length_values, hd]
    exact s.length_identifiers
  obtain ⟨σ, hdomain, hvalues⟩ := exists_substitution _ (nodup_suffixed s hs.nodup)
    (a.values ++ b.values) (by
      rw [List.length_append, List.length_append, hlengths _ a ha, hlengths _ b hb])
  rw [List.map_append, List.map_append] at hvalues
  obtain ⟨hleft, hright⟩ := List.append_inj hvalues (by
    rw [List.length_map, List.length_map, hlengths _ a ha])
  have hnone (name : String)
      (hname : name ∉ suffixed s Names.leftSuffix ++ suffixed s Names.rightSuffix) :
      σ name = none := by
    rw [← Option.not_isSome_iff_eq_none, hdomain]
    exact hname
  have hsystem := hnone _ (name_notMem_suffixed s hs)
  exact ⟨σ, hdomain, hnone _ (reserved_notMem_suffixed s _ (combination_traits_mem_reserved op).2),
    (denotes_parameters_iff r σ s _ a).mpr ⟨hsystem, hleft⟩,
    (denotes_parameters_iff r σ s _ b).mpr ⟨hsystem, hright⟩⟩

/-- The block of an operator between two dimensions agrees with the operator. -/
theorem agrees_combination (r : Runtime) (hr : r.IsExact) (s : Specification) (hs : s.IsValid)
    (op : CombinationOperator) (a b : Dimension) (ha : a.arity = s.arity) (hb : b.arity = s.arity) :
    (combination s op).Agrees r s.name a (.dimension b) (op.apply a b) := by
  refine ⟨exists_matches_combination r s hs op a b ha hb, fun σ hσ => ?_⟩
  have hreserved (name : String) (hmem : name ∈ Names.reserved) : σ name = none := by
    rw [← Option.not_isSome_iff_eq_none, hσ.parameters]
    exact reserved_notMem_suffixed s name hmem
  have hbound := hreserved _ exponentBound_mem_reserved
  have htrait := hreserved _ (combination_traits_mem_reserved op).1
  obtain ⟨hname, hleft⟩ := (denotes_parameters_iff r σ s _ a).mp hσ.target
  obtain ⟨-, hright⟩ := (denotes_parameters_iff r σ s _ b).mp hσ.operand
  rw [suffixed, List.map_map] at hleft hright
  obtain ⟨m, hm, hleft⟩ := exists_values _ _ _ hleft
  obtain ⟨n, hn, hright⟩ := exists_values _ _ _ hright
  obtain ⟨haccepts, hresult⟩ := op.apply_rule a b (ha.trans hb.symm)
  rw [hm, hn, List.zipWith_map, List.zipWith_self] at haccepts hresult
  refine ⟨?_, fun d hd => ?_⟩
  · have hmiddle : ∀ b ∈ s.identifiers.map (fun unit =>
        (⟨.parameter (unit ++ Names.rightSuffix), [⟨exponentBound, none⟩]⟩ : Bound)),
        b.Holds r σ := by
      rw [List.forall_mem_map]
      exact fun unit hunit => holds_parameter r hr σ hbound _ _ (hright unit hunit)
    rw [combination_bounds, holds_pairs_iff r hr σ hbound op.exponentTrait htrait s.identifiers _ _
      m n hleft hright _ hmiddle, ← haccepts, List.forall_mem_map]
    simp only [hr.combination]
  · rw [combination_output]
    refine ⟨rfl, hname, ?_⟩
    rw [← hresult d hd, typeOf, List.map_map]
    refine List.map_congr_left fun unit hunit => ?_
    rw [← hr.combination]
    exact value?_projection r σ _ _ _ _ _ htrait (hleft unit hunit) (hright unit hunit)

/-- The integer of a scaling is given to a parameter that the generated file uses. -/
theorem scalarParameter_mem_reserved : scalarParameter ∈ Names.reserved := by decide

/-- No other name that the generated file uses is a parameter of a scaling. -/
theorem reserved_notMem_scaling (s : Specification) (hs : s.IsValid) (name : String)
    (hname : name ∈ Names.reserved) (hne : name ≠ scalarParameter) :
    name ∉ s.identifiers ++ [scalarParameter] := by
  rw [List.mem_append, List.mem_singleton]
  rintro (hunit | heq)
  · exact hs.reserved _ hunit hname
  · exact hne heq

/-- The traits of an operator that scales a dimension are not its parameter. -/
theorem scaling_traits_ne (op : ScalarOperator) :
    op.exponentTrait ≠ scalarParameter ∧ op.dimensionTrait ≠ scalarParameter := by
  cases op <;> decide

/-- Every dimension and integer are matched by the block of an operator that scales one. -/
theorem exists_matches_scaling (r : Runtime) (s : Specification) (hs : s.IsValid)
    (op : ScalarOperator) (a : Dimension) (k : Int32) (ha : a.arity = s.arity) :
    ∃ σ, (scaling s op).Matches r σ s.name a (.integer k) := by
  have hlength : s.identifiers.length = a.values.length := by
    rw [a.length_values, ha]
    exact s.length_identifiers
  have hnodup : (s.identifiers ++ [scalarParameter]).Nodup := by
    refine List.nodup_append.mpr ⟨hs.nodup, List.nodup_singleton _, ?_⟩
    rintro unit hunit _ hmem rfl
    obtain rfl := List.mem_singleton.mp hmem
    exact hs.reserved _ hunit scalarParameter_mem_reserved
  obtain ⟨σ, hdomain, hvalues⟩ := exists_substitution _ hnodup (a.values ++ [k.toInt]) (by
    rw [List.length_append, List.length_append, hlength]
    rfl)
  rw [List.map_append, List.map_append] at hvalues
  obtain ⟨hleft, hright⟩ := List.append_inj hvalues (by
    rw [List.length_map, List.length_map, hlength])
  have hnone (name : String) (hname : name ∉ s.identifiers ++ [scalarParameter]) :
      σ name = none := by
    rw [← Option.not_isSome_iff_eq_none, hdomain]
    exact hname
  have hsystem : s.name ∉ s.identifiers ++ [scalarParameter] := by
    rw [List.mem_append, List.mem_singleton]
    rintro (hmem | heq)
    · exact hs.system hmem
    · exact hs.reservedName (heq ▸ scalarParameter_mem_reserved)
  exact ⟨σ, hdomain, hnone _ (reserved_notMem_scaling s hs _ (scaling_traits_mem_reserved op).2
      (scaling_traits_ne op).2),
    (denotes_parameters_iff r σ s _ a).mpr ⟨hnone _ hsystem, hleft⟩, (List.cons.inj hright).1⟩

/-- The block of an operator that scales a dimension agrees with the operator. -/
theorem agrees_scaling (r : Runtime) (hr : r.IsExact) (s : Specification) (hs : s.IsValid)
    (op : ScalarOperator) (a : Dimension) (k : Int32) (ha : a.arity = s.arity) :
    (scaling s op).Agrees r s.name a (.integer k) (op.apply a k) := by
  refine ⟨exists_matches_scaling r s hs op a k ha, fun σ hσ => ?_⟩
  have hreserved (name : String) (hmem : name ∈ Names.reserved) (hne : name ≠ scalarParameter) :
      σ name = none := by
    rw [← Option.not_isSome_iff_eq_none, hσ.parameters]
    exact reserved_notMem_scaling s hs name hmem hne
  have hbound := hreserved _ exponentBound_mem_reserved (by decide)
  have htrait := hreserved _ (scaling_traits_mem_reserved op).1 (scaling_traits_ne op).1
  obtain ⟨hname, hleft⟩ := (denotes_parameters_iff r σ s _ a).mp hσ.target
  obtain ⟨m, hm, hleft⟩ := exists_values _ _ _ hleft
  have hscalar : σ scalarParameter = some k.toInt := hσ.operand
  have hne : a.values ≠ [] := by
    rw [hm]
    exact mt List.map_eq_nil_iff.mp hs.nonempty
  obtain ⟨haccepts, hresult⟩ := op.apply_rule a hne k
  rw [hm, List.map_map] at haccepts hresult
  refine ⟨?_, fun d hd => ?_⟩
  · have hmiddle : ∀ b ∈ [(⟨.parameter scalarParameter, [⟨exponentBound, none⟩]⟩ : Bound)],
        b.Holds r σ := by
      rw [List.forall_mem_singleton]
      exact holds_parameter r hr σ hbound _ _ hscalar
    rw [scaling_bounds, holds_pairs_iff r hr σ hbound op.exponentTrait htrait s.identifiers
      (fun unit => unit) (fun _ => scalarParameter) m (fun _ => k.toInt) hleft
      (fun _ _ => hscalar) _ hmiddle, ← haccepts, List.forall_mem_map]
    simp only [hr.scaling, Function.comp_apply]
  · refine ⟨rfl, hname, ?_⟩
    rw [← hresult d hd, scaling, typeOf, List.map_map]
    refine List.map_congr_left fun unit hunit => ?_
    rw [Function.comp_apply, Function.comp_apply, ← hr.scaling]
    exact value?_projection r σ _ _ _ _ _ htrait (hleft unit hunit) hscalar

/-- Parameters of one operand are words. -/
theorem isWordText_of_mem_suffixed (s : Specification) (hs : s.IsValid) (suffix : String)
    (hsuffix : IsWordText suffix) : ∀ name ∈ suffixed s suffix, IsWordText name := by
  intro name hname
  obtain ⟨unit, hunit, rfl⟩ := List.mem_map.mp hname
  exact (isWordText_of_isIdentifier unit (hs.identifiers unit hunit)).append unit suffix hsuffix

/-- The names of an operator between two dimensions are words. -/
theorem isOpen_combination (s : Specification) (hs : s.IsValid) (op : CombinationOperator) :
    (combination s op).IsOpen := by
  have htrait : IsWordText op.exponentTrait := by
    cases op <;> decide
  have hdimension : IsWordText op.dimensionTrait := by
    cases op <;> decide
  have hleft := isWordText_of_mem_suffixed s hs Names.leftSuffix (by decide)
  have hright := isWordText_of_mem_suffixed s hs Names.rightSuffix (by decide)
  have hpair (unit : String) (hunit : unit ∈ s.identifiers) :
      Argument.IsOpen (.projection (unit ++ Names.leftSuffix) op.exponentTrait
        (unit ++ Names.rightSuffix)) :=
    ⟨hleft _ (List.mem_map_of_mem hunit), htrait, hright _ (List.mem_map_of_mem hunit)⟩
  refine
    { parameters := List.forall_mem_append.mpr ⟨hleft, hright⟩
      dimensionTrait := hdimension
      operand := isOpen_typeOfParameters s hs _ hright
      target := isOpen_typeOfParameters s hs _ hleft
      bounds := ?_
      output := ?_ }
  · simp only [combination_bounds, List.forall_mem_append, List.forall_mem_map]
    refine ⟨⟨fun unit hunit => ?_, fun unit hunit => ?_⟩, fun unit hunit => ?_⟩
    · refine isOpen_bound (.parameter _) (hpair unit hunit).1 _ fun t ht => ?_
      obtain rfl := List.mem_singleton.mp ht
      refine ⟨htrait, ?_⟩
      rintro argument ⟨⟩
      exact (hpair unit hunit).2.2
    · exact isOpen_bound (.parameter _) (hpair unit hunit).2.2 [] (by simp)
    · exact isOpen_bound (.projection _ _ _) (hpair unit hunit) [] (by simp)
  · rw [combination_output]
    refine ⟨isWordText_of_isIdentifier s.name hs.name, ?_⟩
    rw [typeOf, List.forall_mem_map]
    exact hpair

/-- The lists of an operator between two dimensions are not empty. -/
theorem isApplied_combination (s : Specification) (hs : s.IsValid) (op : CombinationOperator) :
    (combination s op).IsApplied := by
  have hsuffixed (suffix : String) : suffixed s suffix ≠ [] :=
    mt List.map_eq_nil_iff.mp hs.nonempty
  refine
    { parameters := List.append_ne_nil_of_left_ne_nil (hsuffixed _) _
      operand := mt List.map_eq_nil_iff.mp (hsuffixed _)
      target := mt List.map_eq_nil_iff.mp (hsuffixed _)
      bounds := ?_
      output := ?_ }
  · simp only [combination_bounds, List.forall_mem_append, List.forall_mem_map]
    exact ⟨⟨fun _ _ => List.cons_ne_nil _ _, fun _ _ => List.cons_ne_nil _ _⟩,
      fun _ _ => List.cons_ne_nil _ _⟩
  · rw [combination_output]
    exact mt List.map_eq_nil_iff.mp hs.nonempty

/-- The names of an operator that scales a dimension are words. -/
theorem isOpen_scaling (s : Specification) (hs : s.IsValid) (op : ScalarOperator) :
    (scaling s op).IsOpen := by
  have htrait : IsWordText op.exponentTrait := by
    cases op <;> decide
  have hdimension : IsWordText op.dimensionTrait := by
    cases op <;> decide
  have hscalar : IsWordText scalarParameter := by decide
  have hunits : ∀ unit ∈ s.identifiers, IsWordText unit := fun unit hunit =>
    isWordText_of_isIdentifier unit (hs.identifiers unit hunit)
  refine
    { parameters := List.forall_mem_append.mpr ⟨hunits, by simpa using hscalar⟩
      dimensionTrait := hdimension
      operand := hscalar
      target := isOpen_typeOfParameters s hs _ hunits
      bounds := ?_
      output := ⟨isWordText_of_isIdentifier s.name hs.name, ?_⟩ }
  · simp only [scaling_bounds, List.forall_mem_append, List.forall_mem_map, List.forall_mem_cons,
      List.not_mem_nil, false_imp_iff, implies_true, and_true]
    refine ⟨⟨fun unit hunit => ?_, ?_⟩, fun unit hunit => ?_⟩
    · refine isOpen_bound (.parameter _) (hunits unit hunit) _ fun t ht => ?_
      obtain rfl := List.mem_singleton.mp ht
      refine ⟨htrait, ?_⟩
      rintro argument ⟨⟩
      exact hscalar
    · exact isOpen_bound (.parameter _) hscalar [] (by simp)
    · exact isOpen_bound (.projection _ _ _) ⟨hunits unit hunit, htrait, hscalar⟩ [] (by simp)
  · rw [scaling, typeOf, List.forall_mem_map]
    exact fun unit hunit => ⟨hunits unit hunit, htrait, hscalar⟩

/-- The lists of an operator that scales a dimension are not empty. -/
theorem isApplied_scaling (s : Specification) (hs : s.IsValid) (op : ScalarOperator) :
    (scaling s op).IsApplied := by
  refine
    { parameters := List.append_ne_nil_of_left_ne_nil hs.nonempty _
      operand := trivial
      target := mt List.map_eq_nil_iff.mp hs.nonempty
      bounds := ?_
      output := ?_ }
  · simp only [scaling_bounds, List.forall_mem_append, List.forall_mem_map, List.forall_mem_cons,
      List.not_mem_nil, false_imp_iff, implies_true, and_true]
    exact ⟨⟨fun _ _ => List.cons_ne_nil _ _, List.cons_ne_nil _ _⟩,
      fun _ _ => List.cons_ne_nil _ _⟩
  · rw [scaling, typeOf]
    exact mt List.map_eq_nil_iff.mp hs.nonempty

end UnitSystems.Generated

namespace UnitSystems

open Generated

/-- The generated operators and the operators on dimensions agree. The text of the operators
between two dimensions is read as one block for each, and so is the text of the operators that
scale one. For a runtime whose traits compute what their names say, each block matches every pair
of operands of the system; its conditions hold exactly when the operator does not refuse the
operands, and its output denotes the result of the operator, position by position. -/
theorem operators_agree (d : Definition) (limits : Limits) (s : Specification)
    (hs : d.validate limits = .ok s) (r : Runtime) (hr : r.IsExact)
    (between : List CombinationOperator) (scale : List ScalarOperator) :
    (∃ blocks, readOperations (render (combinations s between)) = some blocks ∧
      List.Forall₂ (fun op block => block.dimensionTrait = op.dimensionTrait ∧
        ∀ a b : Dimension, a.arity = s.arity → b.arity = s.arity →
          block.Agrees r s.name a (.dimension b) (op.apply a b)) between blocks) ∧
    ∃ blocks, readOperations (render (scalings s scale)) = some blocks ∧
      List.Forall₂ (fun op block => block.dimensionTrait = op.dimensionTrait ∧
        ∀ (a : Dimension) (k : Int32), a.arity = s.arity →
          block.Agrees r s.name a (.integer k) (op.apply a k)) scale blocks := by
  have hvalid := d.isValid_of_validate limits s hs
  constructor
  · refine ⟨between.map (combination s), ?_, ?_⟩
    · rw [← readOperations_render (between.map (combination s)), List.flatMap_map]
      · rfl
      · rw [List.forall_mem_map]
        exact fun op _ => isOpen_combination s hvalid op
      · rw [List.forall_mem_map]
        exact fun op _ => isApplied_combination s hvalid op
    · rw [List.forall₂_map_right_iff, List.forall₂_same]
      exact fun op _ => ⟨rfl, fun a b ha hb => agrees_combination r hr s hvalid op a b ha hb⟩
  · refine ⟨scale.map (scaling s), ?_, ?_⟩
    · rw [← readOperations_render (scale.map (scaling s)), List.flatMap_map]
      · rfl
      · rw [List.forall_mem_map]
        exact fun op _ => isOpen_scaling s hvalid op
      · rw [List.forall_mem_map]
        exact fun op _ => isApplied_scaling s hvalid op
    · rw [List.forall₂_map_right_iff, List.forall₂_same]
      exact fun op _ => ⟨rfl, fun a k ha => agrees_scaling r hr s hvalid op a k ha⟩

/-- The block of quotients has the difference of the exponents as its output, and the block of roots
does not apply where an exponent is no multiple. -/
theorem operators_agree_motion :
    ∃ s, motionDefinition.validate {} = .ok s ∧ exactRuntime.IsExact ∧
      (∃ block, readOperations (render (combinations s [.sub])) = some [block] ∧
        block.dimensionTrait = "SubDim" ∧
        block.Agrees exactRuntime "Motion" ⟨[6, -12]⟩ (.dimension ⟨[0, 6]⟩) (.ok ⟨[6, -18]⟩)) ∧
      ∃ block, readOperations (render (scalings s [.div])) = some [block] ∧
        block.dimensionTrait = "DivDim" ∧
        block.Agrees exactRuntime "Motion" ⟨[8, 6]⟩ (.integer 4)
          (.error (.notDivisible ⟨[8, 6]⟩ 4 1)) := by
  obtain ⟨⟨_, hbetween, hsub⟩, _, hscale, hdiv⟩ := operators_agree motionDefinition {} _
    validate_motionDefinition exactRuntime isExact_exactRuntime [.sub] [.div]
  cases hsub with
  | cons hsub hnil =>
    cases hnil
    cases hdiv with
    | cons hdiv hnil =>
      cases hnil
      exact ⟨_, validate_motionDefinition, isExact_exactRuntime,
        ⟨_, hbetween, hsub.1, hsub.2 ⟨[6, -12]⟩ ⟨[0, 6]⟩ rfl rfl⟩,
        _, hscale, hdiv.1, hdiv.2 ⟨[8, 6]⟩ 4 rfl⟩

end UnitSystems
