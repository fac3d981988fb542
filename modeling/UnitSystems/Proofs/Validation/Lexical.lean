import UnitSystems.Proofs.Grammar.Words
import UnitSystems.Proofs.Validation.WellFormed

/-!
# What is reported of lexically sound definitions

A definition whose names are words and whose scalar type is a path has fewer ways to be wrong. Its
scalar type is never reported, and a name is reported as no identifier only if it is the single
underscore or has a meaning of its own in the generated language. Since the sentences of defects
differ, this can be told from the errors alone.
-/

namespace UnitSystems

/-- Values without line breaks and the sign of a comment, and without white space around them. -/
structure IsPlainValue (value : String) : Prop where
  trimmed : Text.trimmed value = value
  chars : ∀ c ∈ value.toList, c ≠ '\n' ∧ c ≠ '\r' ∧ c ≠ '#'

/-- Definitions of which every name is a word other than those of the definition file, the scalar
type is a path and the values are plain. -/
structure Definition.IsLexical (d : Definition) : Prop where
  name : Grammar.IsName d.name
  units : ∀ unit ∈ d.units, Grammar.IsName unit
  constants : ∀ constant ∈ d.constants, Grammar.IsName constant
  unitlessConstant : Grammar.IsName d.unitlessConstant
  scalarType : Names.isTypePath d.scalarType = true
  identityLiteral : IsPlainValue d.identityLiteral
  extraConstants : ∀ extra ∈ d.extraConstants,
    Grammar.IsName extra.name ∧ IsPlainValue extra.expression

/-- Words that the generated language keeps for itself. -/
def Names.IsKept (name : String) : Prop :=
  name = "_" ∨ name ∈ keywords

/-- A name of a definition file can be declared, or the generated language keeps it for itself. -/
theorem Names.isKept_of_isName (name : String) (hname : Grammar.IsName name)
    (h : isIdentifier name = false) : IsKept name := by
  simp only [isIdentifier, hname.1, Bool.and_true, Bool.and_eq_false_iff, bne_eq_false_iff_eq,
    Bool.not_eq_false', List.contains_eq_mem, decide_eq_true_eq] at h
  exact h

namespace Defect

/-- Defects that a lexically sound definition can have. -/
def IsLexical : Defect → Prop
  | scalarNotPath _ _ => False
  | systemNotIdentifier name | unitlessNotIdentifier name | unitNotIdentifier name
  | constantNotIdentifier name => Names.IsKept name
  | _ => True

/-- How the sentence of a defect begins. -/
def opening : Defect → String
  | listLengths .. | noBaseUnits _ | emptyLiteral _ => "system '"
  | systemNotIdentifier _ | systemReserved _ | systemIsParameter .. => "system name '"
  | rootTooSmall .. | rootOutOfRange .. => "allowed root "
  | scalarNotPath .. => "scalar type '"
  | unitlessNotIdentifier _ => "unitless constant '"
  | unitNotIdentifier _ | unitRepeated .. => "unit '"
  | unitReserved _ => "unit name '"
  | controlInSymbol .. => "symbol "
  | constantNotIdentifier _ | constantRepeated .. => "constant '"

/-- All ways in which the sentence of a defect begins. -/
def openings : List String :=
  ["system '", "system name '", "allowed root ", "scalar type '", "unitless constant '", "unit '",
    "unit name '", "symbol ", "constant '"]

/-- The ways in which sentences begin are all of them. -/
theorem opening_mem (defect : Defect) : defect.opening ∈ openings := by
  cases defect <;> simp [opening, openings]

/-- No sentence begins like a sentence that begins in another way. -/
theorem eq_of_isPrefix_opening : ∀ first ∈ openings, ∀ second ∈ openings,
    first.toList <+: second.toList → first = second := by
  decide

/-- The sentence of a defect begins so. -/
theorem opening_isPrefix (defect : Defect) :
    defect.opening.toList <+: defect.message.toList := by
  cases defect with
  | rootTooSmall system root =>
    have hopening : "allowed root ".toList <+: "allowed root of system '".toList := by decide
    unfold message opening
    dsimp only
    simp only [String.toList_append, List.append_assoc]
    exact hopening.trans (List.prefix_append _ _)
  | _ =>
    unfold message opening
    dsimp only
    simp only [String.toList_append, List.append_assoc]
    exact List.prefix_append _ _

/-- Equal sentences begin in the same way. -/
theorem opening_eq_of_message_eq {first second : Defect} (h : first.message = second.message) :
    first.opening = second.opening := by
  have hfirst := first.opening_isPrefix
  rw [h] at hfirst
  rcases List.prefix_or_prefix_of_prefix hfirst second.opening_isPrefix with hprefix | hprefix
  · exact eq_of_isPrefix_opening _ first.opening_mem _ second.opening_mem hprefix
  · exact (eq_of_isPrefix_opening _ second.opening_mem _ first.opening_mem hprefix).symm

/-- The sentence of a defect tells whether a lexically sound definition can have it. -/
theorem isLexical_of_message_eq {first second : Defect} (h : first.message = second.message)
    (hfirst : first.IsLexical) : second.IsLexical := by
  have hopening := opening_eq_of_message_eq h
  have hname (start ending a b : String) (h : start ++ a ++ ending = start ++ b ++ ending) :
      a = b := by simpa using h
  have hending (first second a b : String)
      (hlast : a.toList.getLast? ≠ none ∧ b.toList.getLast? ≠ none ∧
        a.toList.getLast? ≠ b.toList.getLast?) : first ++ a ≠ second ++ b := by
    intro heq
    have heq := congrArg (fun text => text.toList.getLast?) heq
    simp only [String.toList_append, List.getLast?_append] at heq
    cases ha : a.toList.getLast? <;> cases hb : b.toList.getLast? <;> simp_all
  cases second with
  | scalarNotPath =>
    cases first with
    | scalarNotPath => exact hfirst
    | _ => simp [opening] at hopening
  | systemNotIdentifier =>
    cases first with
    | systemNotIdentifier => exact hname _ _ _ _ h ▸ hfirst
    | systemReserved | systemIsParameter => exact absurd h (hending _ _ _ _ (by decide))
    | _ => simp [opening] at hopening
  | unitlessNotIdentifier =>
    cases first with
    | unitlessNotIdentifier => exact hname _ _ _ _ h ▸ hfirst
    | _ => simp [opening] at hopening
  | unitNotIdentifier =>
    cases first with
    | unitNotIdentifier => exact hname _ _ _ _ h ▸ hfirst
    | unitRepeated => exact absurd h (hending _ _ _ _ (by decide))
    | _ => simp [opening] at hopening
  | constantNotIdentifier =>
    cases first with
    | constantNotIdentifier => exact hname _ _ _ _ h ▸ hfirst
    | constantRepeated => exact absurd h (hending _ _ _ _ (by decide))
    | _ => simp [opening] at hopening
  | _ => trivial

end Defect

namespace Definition

/-- A defect under a condition, and others otherwise. -/
theorem isLexical_of_mem_ite (p : Prop) [Decidable p] (defect : Defect) (others : List Defect)
    (hdefect : p → defect.IsLexical) (hothers : ∀ other ∈ others, other.IsLexical) :
    ∀ other ∈ if p then [defect] else others, other.IsLexical := by
  split
  · next hp => exact List.forall_mem_singleton.mpr (hdefect hp)
  · exact hothers

/-- Units with names of a definition file have no other defects. -/
theorem isLexical_of_mem_unitDefects (d : Definition) (seen units : List String)
    (hunits : ∀ unit ∈ units, Grammar.IsName unit) :
    ∀ defect ∈ d.unitDefects seen units, defect.IsLexical := by
  induction units generalizing seen with
  | nil => simp [unitDefects]
  | cons unit units ih =>
    obtain ⟨hunit, hunits⟩ := List.forall_mem_cons.mp hunits
    rw [unitDefects, List.forall_mem_append, List.forall_mem_append]
    refine ⟨⟨?_, isLexical_of_mem_ite _ _ _ (fun _ => trivial) (by simp)⟩, ih _ hunits⟩
    exact isLexical_of_mem_ite _ _ _
      (fun hidentifier => Names.isKept_of_isName unit hunit (by simpa using hidentifier))
      (isLexical_of_mem_ite _ _ _ (fun _ => trivial) (by simp))

/-- A constant with a name of a definition file is no identifier only if its name is kept. -/
theorem isLexical_of_mem_identifier (name : String) (hname : Grammar.IsName name) (defect : Defect)
    (hdefect : Names.IsKept name → defect.IsLexical) :
    ∀ other ∈ if Names.isIdentifier name then [] else [defect], other.IsLexical := by
  split
  · simp
  · next hidentifier =>
    rw [List.forall_mem_singleton]
    exact hdefect (Names.isKept_of_isName name hname (by simpa using hidentifier))

/-- Constants with names of a definition file have no other defects. -/
theorem isLexical_of_mem_constantDefects (d : Definition) (seen constants : List String)
    (hconstants : ∀ constant ∈ constants, Grammar.IsName constant) :
    ∀ defect ∈ d.constantDefects seen constants, defect.IsLexical := by
  induction constants generalizing seen with
  | nil => simp [constantDefects]
  | cons constant constants ih =>
    obtain ⟨hconstant, hconstants⟩ := List.forall_mem_cons.mp hconstants
    rw [constantDefects, List.forall_mem_append, List.forall_mem_append]
    exact ⟨⟨isLexical_of_mem_identifier constant hconstant _ id,
      isLexical_of_mem_ite _ _ _ (fun _ => trivial) (by simp)⟩, ih _ hconstants⟩

/-- The defects of a lexically sound definition are those that such a definition can have. -/
theorem IsLexical.isLexical_of_mem {d : Definition} (h : d.IsLexical) :
    ∀ defect ∈ d.defects, defect.IsLexical := by
  have hsystem : ∀ defect ∈ d.nameDefects, defect.IsLexical := by
    refine isLexical_of_mem_ite _ _ _
      (fun hidentifier => Names.isKept_of_isName d.name h.name (by simpa using hidentifier))
      (isLexical_of_mem_ite _ _ _ (fun _ => trivial) ?_)
    split
    · exact List.forall_mem_singleton.mpr trivial
    · simp
  have hsymbols : ∀ defect ∈ d.symbolDefects, defect.IsLexical := by
    rw [symbolDefects, List.forall_mem_map]
    exact fun _ _ => trivial
  simp only [defects, fieldDefects, List.forall_mem_append]
  refine ⟨⟨⟨⟨⟨⟨⟨hsystem, ?_⟩, ?_⟩, ?_⟩, ?_⟩, ?_⟩, hsymbols⟩, ?_⟩
  · exact isLexical_of_mem_ite _ _ _ (fun _ => trivial) (by simp)
  · simp [h.scalarType]
  · exact isLexical_of_mem_ite _ _ _ (fun _ => trivial) (by simp)
  · exact isLexical_of_mem_identifier _ h.unitlessConstant _ id
  · exact d.isLexical_of_mem_unitDefects [] d.units h.units
  · exact d.isLexical_of_mem_constantDefects _ d.constants h.constants

/-- The single errors of collected defects are those of the defects. -/
theorem leaves_of_collect (defects : List Defect) (error : Error)
    (h : Error.collect (defects.map defectError) = some error) :
    error.leaves = defects.map defectError := by
  rw [Error.leaves_of_collect _ error h, List.flatMap_map]
  exact List.map_eq_flatMap.symm

/-- Whatever is reported of a lexically sound definition is no defect that such a definition cannot
have, within any limits: its scalar type is a path, and a name that is no identifier is kept by the
generated language. -/
theorem IsLexical.isLexical_of_reported {d : Definition} (h : d.IsLexical) (limits : Limits)
    (error : Error) (herror : d.validate limits = .error error) (defect : Defect)
    (hmem : defectError defect ∈ error.leaves) : defect.IsLexical := by
  have hsame (found : Defect) (heq : defectError defect = defectError found)
      (hfound : found.IsLexical) : defect.IsLexical :=
    Defect.isLexical_of_message_eq (Error.specification.inj heq).symm hfound
  obtain hlists | hlimits | hdefects := (d.validate_exact limits).2.2 error herror
  · obtain ⟨found, hfound, rfl⟩ := Option.map_eq_some_iff.mp hlists
    refine hsame found (List.mem_singleton.mp hmem) ?_
    unfold listDefect at hfound
    dsimp only at hfound
    split at hfound
    · exact Option.some.inj hfound ▸ trivial
    · split at hfound
      · exact Option.some.inj hfound ▸ trivial
      · contradiction
  · unfold limitError at hlimits
    split at hlimits
    · rw [← Option.some.inj hlimits] at hmem
      exact absurd (List.mem_singleton.mp hmem) nofun
    · split at hlimits
      · rw [← Option.some.inj hlimits] at hmem
        exact absurd (List.mem_singleton.mp hmem) nofun
      · contradiction
  · rw [leaves_of_collect _ _ hdefects] at hmem
    obtain ⟨found, hfound, heq⟩ := List.mem_map.mp hmem
    exact hsame found heq.symm (h.isLexical_of_mem found hfound)

end Definition

end UnitSystems
