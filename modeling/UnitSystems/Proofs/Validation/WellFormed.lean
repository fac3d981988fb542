import Mathlib.Data.List.Basic
import Mathlib.Tactic.Tauto
import UnitSystems.Proofs.Text.Trimming
import UnitSystems.Proofs.Validation.Names

/-!
# Which definitions are accepted

A definition is accepted exactly when it is well formed: its lists agree, its sizes are within the
limits, its names can stand in a generated file and its texts can be written there. The rules are
stated one by one on the definition, without the order in which validation looks at them. The
specification holds the definition's own fields, and wider limits do not change it.
-/

namespace UnitSystems

namespace Names

/-- Identifiers of the generated language: words of ASCII letters, digits and underscores that begin
with no digit, are not the single underscore and have no meaning of their own. -/
structure IsIdentifier (name : String) : Prop where
  word : ∃ first rest, name.toList = first :: rest ∧ isStart first = true ∧
    ∀ c ∈ rest, isRest c = true
  not_underscore : name ≠ "_"
  not_keyword : name ∉ keywords

/-- Identifiers are what a generated file can declare. -/
theorem isIdentifier_iff (name : String) : isIdentifier name = true ↔ IsIdentifier name := by
  have hword : isWord name.toList = true ↔
      ∃ first rest, name.toList = first :: rest ∧ isStart first = true ∧
        ∀ c ∈ rest, isRest c = true := by
    cases name.toList with
    | nil => simp [isWord]
    | cons first rest => simp [isWord]
  simp only [isIdentifier, Bool.and_eq_true, bne_iff_ne, Bool.not_eq_true', hword,
    List.contains_eq_mem, decide_eq_false_iff_not]
  exact ⟨fun h => ⟨h.1.2, h.1.1, h.2⟩, fun h => ⟨⟨h.not_underscore, h.word⟩, h.not_keyword⟩⟩

/-- The words of a path: joined by double colons, perhaps with a double colon in front, they are the
path. -/
structure IsPathOf (words : List (List Char)) (path : String) : Prop where
  nonempty : words ≠ []
  isWord : ∀ word ∈ words, isWord word = true
  joined : path.toList = "::".toList.intercalate words ∨
    path.toList = "::".toList ++ "::".toList.intercalate words

/-- There is always a segment. -/
theorem segments_ne_nil (path : List Char) : segments path ≠ [] := by
  fun_cases segments path <;> simp

/-- Joined by double colons, the segments are the path. -/
theorem intercalate_segments (path : List Char) :
    "::".toList.intercalate (segments path) = path := by
  fun_induction segments path with
  | case1 => rfl
  | case2 rest ih =>
    obtain ⟨first, others, heq⟩ := List.exists_cons_of_ne_nil (segments_ne_nil rest)
    rw [heq] at ih ⊢
    rw [List.intercalate_cons_cons, ih]
    rfl
  | case3 c rest _ hnone ih => exact absurd hnone (segments_ne_nil rest)
  | case4 c rest _ segment others heq ih =>
    rw [heq] at ih
    cases others with
    | nil => simpa using ih
    | cons next others =>
      rw [List.intercalate_cons_cons] at ih ⊢
      simp [← ih]

/-- No word has a colon. -/
theorem colon_notMem_word (word : List Char) (h : isWord word = true) : ':' ∉ word := by
  intro hmem
  exact absurd (isRest_of_mem_word word h ':' hmem) (by decide)

/-- A text without colons is one segment. -/
theorem segments_of_notMem (word : List Char) (h : ':' ∉ word) : segments word = [word] := by
  induction word with
  | nil => rfl
  | cons c word ih =>
    obtain ⟨hc, hword⟩ := List.ne_and_not_mem_of_not_mem_cons h
    rw [segments, ih hword]
    rintro rest rfl
    exact absurd rfl hc

/-- A text without colons before a double colon is the first segment. -/
theorem segments_append_of_notMem (word rest : List Char) (h : ':' ∉ word) :
    segments (word ++ "::".toList ++ rest) = word :: segments rest := by
  induction word with
  | nil => rfl
  | cons c word ih =>
    obtain ⟨hc, hword⟩ := List.ne_and_not_mem_of_not_mem_cons h
    rw [List.cons_append, List.cons_append, segments, ih hword]
    intro rest heq
    exact absurd heq.symm hc

/-- The segments of joined words are the words. -/
theorem segments_intercalate (words : List (List Char)) (hne : words ≠ [])
    (hwords : ∀ word ∈ words, ':' ∉ word) : segments ("::".toList.intercalate words) = words := by
  induction words with
  | nil => contradiction
  | cons word words ih =>
    obtain ⟨hword, hrest⟩ := List.forall_mem_cons.mp hwords
    cases words with
    | nil => rw [List.intercalate_singleton, segments_of_notMem word hword]
    | cons next words =>
      rw [List.intercalate_cons_cons, segments_append_of_notMem word _ hword,
        ih (List.cons_ne_nil _ _) hrest]

/-- A text is the path of a type exactly when it is a path of some words. -/
theorem isTypePath_iff (path : String) :
    isTypePath path = true ↔ ∃ words, IsPathOf words path := by
  rw [isTypePath, List.all_eq_true]
  constructor
  · intro h
    refine ⟨_, segments_ne_nil _, h, ?_⟩
    rw [intercalate_segments]
    unfold relative
    split
    · next rest heq => exact .inr heq
    · exact .inl rfl
  · rintro ⟨words, hne, hwords, hjoined⟩
    have hcolons (word : List Char) (hmem : word ∈ words) : ':' ∉ word :=
      colon_notMem_word word (hwords word hmem)
    have hrelative : relative path.toList = "::".toList.intercalate words := by
      rcases hjoined with heq | heq
      · -- the first word begins with no colon
        obtain ⟨first, others, rfl⟩ := List.exists_cons_of_ne_nil hne
        rw [heq]
        unfold relative
        split
        · next rest hcolon =>
          exfalso
          have hfirst := hwords first List.mem_cons_self
          cases first with
          | nil => simp [isWord] at hfirst
          | cons c first =>
            have hhead : c = ':' := by
              cases others with
              | nil =>
                rw [List.intercalate_singleton] at hcolon
                exact (List.cons.inj hcolon).1
              | cons next others =>
                rw [List.intercalate_cons_cons] at hcolon
                exact (List.cons.inj hcolon).1
            exact hcolons _ List.mem_cons_self (hhead ▸ List.mem_cons_self)
        · rfl
      · rw [heq]
        rfl
    rw [hrelative, segments_intercalate words hne hcolons]
    exact hwords

/-- The text before a double colon is cut off at it, if no colon stands in it. -/
theorem beforeColons_append (word rest : List Char) (h : ':' ∉ word) :
    beforeColons (word ++ "::".toList ++ rest) = word := by
  induction word with
  | nil => rfl
  | cons c word ih =>
    obtain ⟨hc, hword⟩ := List.ne_and_not_mem_of_not_mem_cons h
    rw [List.cons_append, List.cons_append, beforeColons, ih hword]
    intro rest heq
    exact absurd heq.symm hc

/-- The last of joined words ends their text, alone or after a double colon. -/
theorem intercalate_concat (words : List (List Char)) (last : List Char) :
    "::".toList.intercalate (words ++ [last]) = last ∨
      ∃ before, "::".toList.intercalate (words ++ [last]) = before ++ "::".toList ++ last := by
  induction words with
  | nil => exact .inl List.intercalate_singleton
  | cons word words ih =>
    refine .inr ?_
    obtain ⟨next, others, heq⟩ := List.exists_cons_of_ne_nil
      (by simp : words ++ [last] ≠ [])
    rw [List.cons_append, heq, List.intercalate_cons_cons, ← heq]
    rcases ih with hlast | ⟨before, hbefore⟩
    · exact ⟨word, by rw [hlast]⟩
    · exact ⟨word ++ "::".toList ++ before, by simp only [hbefore, List.append_assoc]⟩

/-- A path ends in the last of its words. -/
theorem IsPathOf.getLast?_words {words : List (List Char)} {path : String}
    (h : IsPathOf words path) : words.getLast? = some (lastSegment path).toList := by
  obtain ⟨init, last, rfl⟩ := (List.eq_nil_or_concat' words).resolve_left h.nonempty
  have hlast : ':' ∉ last := colon_notMem_word last (h.isWord last (by simp))
  have hreverse : ':' ∉ last.reverse := by rwa [List.mem_reverse]
  have hends : path.toList = last ∨ ∃ before, path.toList = before ++ "::".toList ++ last := by
    rcases intercalate_concat init last with heq | ⟨before, heq⟩ <;>
      rcases h.joined with hpath | hpath <;> rw [heq] at hpath
    · exact .inl hpath
    · exact .inr ⟨[], hpath⟩
    · exact .inr ⟨before, hpath⟩
    · exact .inr ⟨"::".toList ++ before, by rw [hpath]; simp only [List.append_assoc]⟩
  have hsegment : beforeColons path.toList.reverse = last.reverse := by
    rcases hends with heq | ⟨before, heq⟩
    · rw [heq, beforeColons_eq_self_iff]
      exact fun hin => hreverse (hin.subset List.mem_cons_self)
    · rw [heq, List.reverse_append, List.reverse_append, ← List.append_assoc]
      exact beforeColons_append last.reverse before.reverse hreverse
  rw [List.getLast?_concat, Names.lastSegment, hsegment, List.reverse_reverse,
    String.toList_ofList]

/-- A type name is free exactly when neither the generated file nor the language has it, and the
path of the scalar type does not end in it. -/
theorem isReserved_eq_false_iff (name scalarType : String) :
    isReserved name scalarType = false ↔
      name ∉ reserved ∧ name ∉ primitives ∧ lastSegment scalarType ≠ name := by
  simp only [isReserved, Bool.or_eq_false_iff, List.contains_eq_mem, decide_eq_false_iff_not,
    beq_eq_false_iff_ne, and_assoc]

/-- A path leaves type names free exactly when it is a path of words of which the last one is none
of them, and neither the generated file nor the language has them. -/
theorem isTypePath_and_free_iff (path : String) (names : List String) :
    (isTypePath path = true ∧ ∀ name ∈ names, isReserved name path = false) ↔
      (∃ words, IsPathOf words path ∧ ∀ name ∈ names, words.getLast? ≠ some name.toList) ∧
        ∀ name ∈ names, name ∉ reserved ∧ name ∉ primitives := by
  have hlast (words : List (List Char)) (hwords : IsPathOf words path) (name : String) :
      words.getLast? ≠ some name.toList ↔ lastSegment path ≠ name := by
    rw [hwords.getLast?_words, ne_eq, Option.some.injEq, String.toList_inj]
  simp only [isReserved_eq_false_iff, isTypePath_iff]
  constructor
  · rintro ⟨⟨words, hwords⟩, hfree⟩
    exact ⟨⟨words, hwords, fun name hname => (hlast words hwords name).mpr (hfree name hname).2.2⟩,
      fun name hname => ⟨(hfree name hname).1, (hfree name hname).2.1⟩⟩
  · rintro ⟨⟨words, hwords, hfree⟩, hdeclared⟩
    exact ⟨⟨words, hwords⟩, fun name hname => ⟨(hdeclared name hname).1, (hdeclared name hname).2,
      (hlast words hwords name).mp (hfree name hname)⟩⟩

end Names

namespace Definition

/-- Definitions that a file can be generated from, within limits. -/
structure IsWellFormed (d : Definition) (limits : Limits) : Prop where
  symbolForEach : d.symbols.length = d.units.length
  constantForEach : d.constants.length = d.units.length
  unitCount : 1 ≤ d.units.length ∧ d.units.length ≤ limits.maxBaseUnits
  root : 1 ≤ d.allowedRoot.toInt ∧ d.allowedRoot.toInt ≤ limits.maxAllowedRoot.toNat
  identifiers : ∀ name ∈ d.name :: d.units ++ d.unitlessConstant :: d.constants,
    Names.IsIdentifier name
  /-- The scalar type is a path that ends in no declared type. -/
  scalarType : ∃ words, Names.IsPathOf words d.scalarType ∧
    ∀ name ∈ d.name :: d.units, words.getLast? ≠ some name.toList
  literal : ∃ c ∈ d.identityLiteral.toList, Text.isWhiteSpace c = false
  unreserved : ∀ name ∈ d.name :: d.units, name ∉ Names.reserved ∧ name ∉ Names.primitives
  types : (d.name :: d.units).Nodup
  /-- No type parameter of a unit is called like the system. -/
  parameters : ∀ unit ∈ d.units, d.name ≠ unit ++ "1" ∧ d.name ≠ unit ++ "2"
  constants : (d.unitlessConstant :: d.constants).Nodup
  symbols : ∀ symbol ∈ d.symbols, ∀ c ∈ symbol.toList, Text.isControl c = false

/-- A definition is within the limits exactly when its units and its root are. -/
theorem limitError_eq_none_iff (d : Definition) (limits : Limits) :
    d.limitError limits = none ↔ d.units.length ≤ limits.maxBaseUnits ∧
      d.allowedRoot.toInt ≤ limits.maxAllowedRoot.toNat := by
  rw [← Nat.not_lt, ← Int.not_lt]
  unfold limitError
  split
  · next hunits => exact iff_of_false (by simp) fun h => h.1 hunits
  · next hunits =>
    rw [and_iff_right hunits]
    simp

/-- The fields have no defects exactly when each of them can stand in a generated file. -/
theorem fieldDefects_eq_nil_iff (d : Definition) : d.fieldDefects = [] ↔
    d.nameDefects = [] ∧ 1 ≤ d.allowedRoot.toInt ∧ Names.isTypePath d.scalarType = true ∧
      Text.isAllWhite d.identityLiteral = false ∧
      Names.isIdentifier d.unitlessConstant = true := by
  simp [fieldDefects]

/-- Nothing is wrong with the names exactly when they are identifiers, the types are distinct and
free and no type parameter is called like the system, the constants are distinct, and the other
fields can stand in a generated file. -/
theorem defects_eq_nil_iff (d : Definition) : d.defects = [] ↔
    (∀ name ∈ d.name :: d.units ++ d.unitlessConstant :: d.constants,
        Names.isIdentifier name = true) ∧
      (Names.isTypePath d.scalarType = true ∧
        ∀ name ∈ d.name :: d.units, Names.isReserved name d.scalarType = false) ∧
      (d.name :: d.units).Nodup ∧
      (∀ unit ∈ d.units, d.name ≠ unit ++ "1" ∧ d.name ≠ unit ++ "2") ∧
      (d.unitlessConstant :: d.constants).Nodup ∧
      1 ≤ d.allowedRoot.toInt ∧ Text.isAllWhite d.identityLiteral = false ∧
      ∀ symbol ∈ d.symbols, ∀ c ∈ symbol.toList, Text.isControl c = false := by
  have hunit (unit : String) : d.isReservedUnit unit = false ↔
      Names.isReserved unit d.scalarType = false ∧ unit ≠ d.name := by
    rw [isReservedUnit, Bool.or_eq_false_iff, beq_eq_false_iff_ne]
  have hnot (name : String) (names : List String) : name ∉ names ↔ ∀ other ∈ names, other ≠ name :=
    ⟨fun h other hother heq => h (heq ▸ hother), fun h hmem => h name hmem rfl⟩
  simp only [defects, List.append_eq_nil_iff, fieldDefects_eq_nil_iff, nameDefects_eq_nil_iff,
    unitDefects_eq_nil_iff, symbolDefects_eq_nil_iff, constantDefects_eq_nil_iff, hunit,
    List.nodup_cons, hnot d.name, hnot d.unitlessConstant, List.forall_mem_append,
    List.forall_mem_cons, forall_and, List.not_mem_nil, List.mem_singleton, not_false_iff,
    true_and, Names.leftSuffix, Names.rightSuffix]
  tauto

/-- A definition is well formed exactly when validation finds nothing. -/
theorem isWellFormed_iff (d : Definition) (limits : Limits) : d.IsWellFormed limits ↔
    d.listDefect = none ∧ d.limitError limits = none ∧ d.defects = [] := by
  have hliteral : (∃ c ∈ d.identityLiteral.toList, Text.isWhiteSpace c = false) ↔
      Text.isAllWhite d.identityLiteral = false := by
    rw [← Bool.not_eq_true, Text.isAllWhite_iff]
    simp
  rw [listDefect_eq_none_iff, limitError_eq_none_iff, defects_eq_nil_iff, ← List.length_pos_iff,
    Names.isTypePath_and_free_iff, ← hliteral]
  simp only [Names.isIdentifier_iff]
  constructor
  · intro h
    exact ⟨⟨h.symbolForEach.symm, h.constantForEach.symm, h.unitCount.1⟩,
      ⟨h.unitCount.2, h.root.2⟩, h.identifiers, ⟨h.scalarType, h.unreserved⟩, h.types,
      h.parameters, h.constants, h.root.1, h.literal, h.symbols⟩
  · rintro ⟨⟨hsymbols, hconstants, hpos⟩, ⟨hunits, hroot⟩, hidentifiers, ⟨hscalar, hfree⟩, htypes,
      hparameters, hdistinct, hone, hblank, hcontrols⟩
    exact ⟨hsymbols.symm, hconstants.symm, ⟨hpos, hunits⟩, ⟨hone, hroot⟩, hidentifiers, hscalar,
      hblank, hfree, htypes, hparameters, hdistinct, hcontrols⟩

/-- The base units of three parallel lists hold, place by place, what stands in the lists. -/
theorem getElem?_zipUnits (units symbols constants : List String) (i : Nat) (unit : BaseUnit) :
    (zipUnits units symbols constants)[i]? = some unit ↔ units[i]? = some unit.identifier ∧
      symbols[i]? = some unit.symbol ∧ constants[i]? = some unit.constant := by
  fun_induction zipUnits units symbols constants generalizing i with
  | case1 first units symbol symbols constant constants ih =>
    cases i with
    | zero => cases unit; simp
    | succ i => simpa using ih i
  | case2 units symbols constants hshort =>
    refine iff_of_false nofun ?_
    rintro ⟨hunit, hsymbol, hconstant⟩
    match units, symbols, constants with
    | [], _, _ => contradiction
    | _ :: _, [], _ => contradiction
    | _ :: _, _ :: _, [] => contradiction
    | _ :: _, _ :: _, _ :: _ => exact hshort _ _ _ _ _ _ rfl rfl rfl

end Definition

/-- What a specification takes over from a definition. -/
structure Specification.IsOf (s : Specification) (d : Definition) : Prop where
  name : s.name = d.name
  outputTarget : s.outputTarget = d.outputTarget
  /-- The lists agree place by place. -/
  baseUnits : ∀ (i : Nat) (unit : BaseUnit), s.baseUnits[i]? = some unit ↔
    d.units[i]? = some unit.identifier ∧ d.symbols[i]? = some unit.symbol ∧
      d.constants[i]? = some unit.constant
  scalarType : s.scalarType = d.scalarType
  /-- The literal loses the white space at both of its ends. -/
  identityLiteral : Text.IsTrimmed d.identityLiteral.toList s.identityLiteral.toList
  unitlessConstant : s.unitlessConstant = d.unitlessConstant
  allowedRoot : s.allowedRoot.toNat = d.allowedRoot.toInt
  extraConstants : s.extraConstants = d.extraConstants

namespace Definition

/-- A root that is positive and within the limits is a 32-bit number. -/
theorem exists_root32 (d : Definition) (limits : Limits) (h : d.IsWellFormed limits) :
    ∃ root, d.root32? = some root := by
  have hroot := h.root
  have hmax := limits.maxAllowedRoot.toNat_lt_size
  refine ⟨UInt32.ofNat d.allowedRoot.toInt.toNat, (d.root32?_eq_some_iff _).mpr ?_⟩
  rw [UInt32.toNat_ofNat_of_lt' (by omega)]
  omega

/-- The root of a specification is within the limits of its validation. -/
theorem allowedRoot_le_of_validate (d : Definition) (limits : Limits) (s : Specification)
    (h : d.validate limits = .ok s) : s.allowedRoot.toNat ≤ limits.maxAllowedRoot.toNat := by
  obtain ⟨-, hlimits, -, root, hroot, rfl⟩ := (d.validate_eq_ok_iff limits s).mp h
  have hwithin := ((d.limitError_eq_none_iff limits).mp hlimits).2
  rw [(d.root32?_eq_some_iff root).mp hroot] at hwithin
  exact Int.ofNat_le.mp hwithin

/-- Validation accepts exactly the well-formed definitions. The specification holds what stands in
the definition and does not depend on the limits that the definition is within. Whatever is
reported was found in the lists, the limits or the names: a root that passed these checks is never
out of range. -/
theorem validate_exact (d : Definition) (limits : Limits) :
    ((∃ s, d.validate limits = .ok s) ↔ d.IsWellFormed limits) ∧
      (∀ s, d.validate limits = .ok s → s.IsOf d ∧
        ∀ wider : Limits, limits.maxBaseUnits ≤ wider.maxBaseUnits →
          limits.maxAllowedRoot ≤ wider.maxAllowedRoot → d.validate wider = .ok s) ∧
      ∀ error, d.validate limits = .error error →
        d.listDefect.map defectError = some error ∨ d.limitError limits = some error ∨
          Error.collect (d.defects.map defectError) = some error := by
  have haccepted : (∃ s, d.validate limits = .ok s) ↔ d.IsWellFormed limits := by
    constructor
    · rintro ⟨s, hs⟩
      obtain ⟨hlists, hlimits, hdefects, -⟩ := (d.validate_eq_ok_iff limits s).mp hs
      exact (d.isWellFormed_iff limits).mpr ⟨hlists, hlimits, hdefects⟩
    · intro h
      obtain ⟨hlists, hlimits, hdefects⟩ := (d.isWellFormed_iff limits).mp h
      obtain ⟨root, hroot⟩ := d.exists_root32 limits h
      exact ⟨_, (d.validate_eq_ok_iff limits _).mpr ⟨hlists, hlimits, hdefects, root, hroot, rfl⟩⟩
  refine ⟨haccepted, fun s hs => ?_, fun error herror => ?_⟩
  · obtain ⟨hlists, hlimits, hdefects, root, hroot, rfl⟩ := (d.validate_eq_ok_iff limits s).mp hs
    refine ⟨⟨rfl, rfl, fun i unit => getElem?_zipUnits _ _ _ i unit, rfl,
      (Text.trimmed_eq_iff _ _).mp rfl, rfl, ((d.root32?_eq_some_iff root).mp hroot).symm, rfl⟩,
      fun wider hunits hroots => ?_⟩
    have hwider : d.limitError wider = none := by
      rw [limitError_eq_none_iff] at hlimits ⊢
      rw [UInt32.le_iff_toNat_le] at hroots
      omega
    exact (d.validate_eq_ok_iff wider _).mpr ⟨hlists, hwider, hdefects, root, hroot, rfl⟩
  · cases hlists : d.listDefect with
    | some defect =>
      simp only [validate, hlists, Except.error.injEq] at herror
      exact .inl (congrArg some herror)
    | none =>
      cases hlimits : d.limitError limits with
      | some beyond =>
        simp only [validate, hlists, hlimits, Except.error.injEq] at herror
        exact .inr (.inl (congrArg some herror))
      | none =>
        cases hdefects : Error.collect (d.defects.map defectError) with
        | some found =>
          simp only [validate, hlists, hlimits, hdefects, Except.error.injEq] at herror
          exact .inr (.inr (congrArg some herror))
        | none =>
          -- nothing was found, so the definition is accepted
          have hnil : d.defects = [] :=
            List.map_eq_nil_iff.mp ((Error.collect_eq_none_iff _).mp hdefects)
          obtain ⟨s, hs⟩ := haccepted.mpr
            ((d.isWellFormed_iff limits).mpr ⟨hlists, hlimits, hnil⟩)
          rw [hs] at herror
          contradiction

/-- A system of two base units with white space around its literal. -/
def paddedDefinition : Definition :=
  { motionDefinition with identityLiteral := "\t1.0 " }

/-- This system is well formed, its specification has the literal alone, and wider limits leave the
specification as it is. -/
theorem validate_exact_padded :
    paddedDefinition.IsWellFormed {} ∧ ∃ s, paddedDefinition.validate {} = .ok s ∧
      s.IsOf paddedDefinition ∧ s.identityLiteral = "1.0" ∧
      paddedDefinition.validate { maxBaseUnits := 40, maxAllowedRoot := 60 } = .ok s := by
  have hvalid : paddedDefinition.validate {} = .ok (paddedDefinition.toSpecification 6) :=
    eq_ok_of_toOption _ _ (by decide +kernel)
  obtain ⟨haccepted, hkept, -⟩ := validate_exact paddedDefinition {}
  obtain ⟨hof, hwider⟩ := hkept _ hvalid
  exact ⟨haccepted.mp ⟨_, hvalid⟩, _, hvalid, hof, by decide +kernel,
    hwider { maxBaseUnits := 40, maxAllowedRoot := 60 } (by decide) (by decide)⟩

end Definition
end UnitSystems
