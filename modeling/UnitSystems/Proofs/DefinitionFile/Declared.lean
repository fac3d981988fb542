import UnitSystems.Proofs.DefinitionFile.Concatenation
import UnitSystems.Proofs.DefinitionFile.Order
import UnitSystems.Proofs.Grammar.Content
import UnitSystems.Proofs.Grammar.Lexemes
import UnitSystems.Proofs.Span.Sound
import UnitSystems.Proofs.Validation.Lexical

/-!
# What accepted texts declare

The definitions of an accepted text belong to its systems one by one. Each has in every field what
the one directive for it says, or the default where there is none, and the extra constants as they
follow each other in the text. Its names are words, its scalar type is a path and its values are
plain, as the grammar takes nothing else, so that validation has little to say about them.
-/

namespace UnitSystems

open Grammar

/-- Directives with names, paths and values of the grammar. -/
def Directive.IsLexical : Directive → Prop
  | output _ | root _ | symbols _ => True
  | scalar type literal => Names.isTypePath type = true ∧ ∀ value ∈ literal, IsPlainValue value
  | unitless name => IsName name
  | units names | constants names => ∀ name ∈ names, IsName name
  | extra constant => IsName constant.name ∧ IsPlainValue constant.expression

/-- The value at the end of a line is plain without the white space around it. -/
theorem isPlainValue_trim (value : List Char) (h : IsLexeme .restOfLine value) :
    IsPlainValue (String.ofList (Text.trim value)) := by
  obtain ⟨⟨before, after, hparts, -⟩, -, -⟩ := Text.isTrimmed_trim value
  have hsub : Text.trim value ⊆ value := by
    intro c hc
    rw [hparts]
    exact List.mem_append_left _ (List.mem_append_right _ hc)
  refine ⟨?_, fun c hc => ?_⟩
  · rw [Text.trimmed, String.toList_ofList, Text.trim_trim]
  · rw [String.toList_ofList] at hc
    have hvalue := h c (hsub hc)
    simp only [isValue, isLineBreak, Bool.and_eq_true, Bool.not_eq_true', Bool.or_eq_false_iff,
      beq_eq_false_iff_ne, bne_iff_ne] at hvalue
    exact ⟨hvalue.1.1, hvalue.1.2, hvalue.2⟩

section

variable {pieces : List (Piece Part)}

/-- A leaf that is among pieces is found there, and its text is what its name says. -/
theorem exists_leafString (name : Part) {p : Pattern Part} (hp : p.holdsLeaf name = true)
    {text rest : List Char} (hread : p.read text = some (pieces, rest))
    (hmeet : Piece.Meet IsLexeme pieces) :
    ∃ taken, Directive.leafString name pieces = String.ofList taken ∧ IsLexeme name taken := by
  obtain ⟨taken, htaken⟩ := Pattern.exists_leafText? hp hread
  refine ⟨taken, ?_, hmeet.leafText? name taken htaken⟩
  rw [Directive.leafString, htaken, Option.getD_some]

/-- The identifiers of a list are names. -/
theorem isName_of_mem_identifiers (hmeet : Piece.Meet IsLexeme pieces) :
    ∀ name ∈ Directive.identifiers pieces, IsName name := by
  rw [Directive.identifiers, List.forall_mem_map]
  cases hlist : branch? .identifierList pieces with
  | none => simp [leafTexts]
  | some inside => exact (hmeet.branch? _ inside hlist).leafTexts .identifier

/-- The value at the end of a line is plain. -/
theorem isPlainValue_of_mem_lineValue? (hmeet : Piece.Meet IsLexeme pieces) :
    ∀ value ∈ Directive.lineValue? pieces, IsPlainValue value := by
  intro value hvalue
  obtain ⟨taken, htaken, rfl⟩ := Option.map_eq_some_iff.mp hvalue
  exact isPlainValue_trim taken (hmeet.leafText? .restOfLine taken htaken)

end

/-- What is read as a directive has names, paths and values of the grammar. -/
theorem isLexical_of_read_directive {text rest : List Char} {pieces : List (Piece Part)}
    (h : Form.directive.read text = some (pieces, rest)) :
    ∀ directive ∈ pieces.filterMap Directive.ofPiece?, directive.IsLexical := by
  have hmeet := Form.directive.meets demands_directive _ _ _ h
  have hsingle (name : Part) (inner : List (Piece Part)) (directive : Directive)
      (hof : Directive.ofPiece? (.branch name inner) = some directive)
      (hdirective : directive.IsLexical) :
      ∀ other ∈ [Piece.branch name inner].filterMap Directive.ofPiece?, other.IsLexical := by
    rw [List.filterMap_cons_some hof]
    exact List.forall_mem_singleton.mpr hdirective
  obtain ⟨form, hform, hread⟩ := (read_directive_iff _ _).mp h
  simp only [directiveForms, List.mem_cons, List.not_mem_nil, or_false] at hform
  rcases hform with rfl | rfl | rfl | rfl | rfl | rfl | rfl | rfl <;>
    obtain ⟨inner, hinner, rfl⟩ := Pattern.exists_of_read_branch hread <;>
    have hmeet := (Piece.meet_branch_iff _ _).mp hmeet
  · exact hsingle _ _ _ rfl trivial
  · obtain ⟨path, hpath, hlexeme⟩ := exists_leafString .scalarType (by decide) hinner hmeet
    exact hsingle _ _ _ rfl ⟨hpath ▸ hlexeme, isPlainValue_of_mem_lineValue? hmeet⟩
  · obtain ⟨name, hname, hlexeme⟩ := exists_leafString .identifier (by decide) hinner hmeet
    exact hsingle _ _ _ rfl (hname ▸ hlexeme)
  · exact hsingle _ _ _ rfl trivial
  · exact hsingle _ _ _ rfl (isName_of_mem_identifiers hmeet)
  · exact hsingle _ _ _ rfl trivial
  · exact hsingle _ _ _ rfl (isName_of_mem_identifiers hmeet)
  · obtain ⟨name, hname, hlexeme⟩ := exists_leafString .identifier (by decide) hinner hmeet
    refine hsingle _ _ _ rfl ⟨hname ▸ hlexeme, ?_⟩
    cases hvalue : Directive.lineValue? inner with
    | none => exact ⟨rfl, by simp⟩
    | some value => exact isPlainValue_of_mem_lineValue? hmeet value hvalue

/-- What holds of every directive that can be read holds of those of a system. -/
theorem forall_directives_of_read_system {p : Directive → Prop}
    (hdirective : ∀ text pieces rest, Form.directive.read text = some (pieces, rest) →
      ∀ directive ∈ pieces.filterMap Directive.ofPiece?, p directive)
    {text rest : List Char} {inside : List (Piece Part)}
    (h : Form.system.read text = some ([.branch .system inside], rest)) :
    ∀ directive ∈ inside.filterMap Directive.ofPiece?, p directive := by
  have hlines {text rest : List Char} {pieces : List (Piece Part)}
      (h : Repeats (afterGap line.read) text pieces rest) :
      ∀ directive ∈ pieces.filterMap Directive.ofPiece?, p directive := by
    induction h with
    | stop => simp
    | round hround hmore ih =>
      obtain ⟨inner, hinner, rfl⟩ := exists_of_afterGap hround
      obtain ⟨plain, pieces, hread, hplain, rfl⟩ := of_read_line hinner
      rw [List.cons_append, List.filterMap_cons_none rfl, List.filterMap_append,
        List.filterMap_append, directives_plain plain hplain, List.nil_append]
      exact List.forall_mem_append.mpr ⟨hdirective _ _ _ hread, ih⟩
  obtain ⟨inner, hinner, heq⟩ := Pattern.exists_of_read_branch h
  cases heq
  obtain ⟨name, middle, below, hname, hbelow, rfl⟩ := Pattern.exists_of_read_spaced hinner
  obtain ⟨_, -, rfl⟩ := Pattern.exists_of_read_branch hname
  rw [List.singleton_append, List.filterMap_cons_none rfl]
  obtain ⟨-, rfl, -⟩ | ⟨-, hrepeats⟩ :=
    (Pattern.afterGap_spacedMany_iff (p := line) (by decide)).mp hbelow
  · simp [Directive.ofPiece?]
  · exact hlines hrepeats

/-- The name of a system is one. -/
theorem isName_of_read_system {text rest : List Char} {inside : List (Piece Part)}
    (h : Form.system.read text = some ([.branch .system inside], rest)) (start : Place) :
    IsName (SystemText.ofParts start inside).name := by
  obtain ⟨inner, hinner, heq⟩ := Pattern.exists_of_read_branch h
  cases heq
  obtain ⟨name, middle, below, hname, -, rfl⟩ := Pattern.exists_of_read_spaced hinner
  obtain ⟨parts, hparts, rfl⟩ := Pattern.exists_of_read_branch hname
  have hdemands : (Pattern.spaced (Form.declarationWord .systemWord "system")
      Form.identifier).Demands IsLexeme := ⟨fun _ _ _ _ => trivial, demands_identifier⟩
  obtain ⟨taken, htaken, hlexeme⟩ := exists_leafString .identifier (by decide) hparts
    (Pattern.meets _ hdemands _ _ _ hparts)
  show IsName (Directive.leafString .identifier parts)
  rw [htaken]
  exact hlexeme

/-- Directives stand in the text in the order in which they are listed, each behind the one before
it. -/
theorem directivesOf_pairwise (start : Place) (parts : List (Piece Part)) :
    (SystemText.directivesOf start parts).Pairwise fun first second =>
      first.1.stop ≤ second.1.start := by
  refine List.pairwise_filterMap.mpr ((pairwise_located start parts).2.imp ?_)
  intro first second hle entry hentry other hother
  obtain ⟨_, -, rfl⟩ := Option.map_eq_some_iff.mp hentry
  obtain ⟨_, -, rfl⟩ := Option.map_eq_some_iff.mp hother
  exact hle

/-- A system of a text: its name is one, and its directives have names, paths and values of the
grammar and stand in the order of the text. -/
structure SystemText.IsLexical (system : SystemText) : Prop where
  name : IsName system.name
  directives : ∀ directive ∈ system.directives.map (·.2), directive.IsLexical
  ordered : system.directives.Pairwise fun first second => first.1.stop ≤ second.1.start

/-- The systems of a text have names and directives of the grammar. -/
theorem HoldsSystems.isLexical {place : Place} {text : List Char} {found : List SystemText}
    (h : HoldsSystems place text found) : ∀ system ∈ found, system.IsLexical := by
  intro system hsystem
  obtain ⟨before, start, rest, inside, -, hread, rfl⟩ := h.exists_read system hsystem
  refine ⟨isName_of_read_system hread _, ?_, directivesOf_pairwise _ _⟩
  rw [SystemText.ofParts, map_directivesOf]
  exact forall_directives_of_read_system (fun _ _ _ => isLexical_of_read_directive) hread

namespace Definition

/-- The defaults of a definition are lexically sound. -/
theorem isLexical_default (name : String) (hname : IsName name) :
    IsLexical { name := name } where
  name := hname
  units := by simp
  constants := by simp
  unitlessConstant := (by decide : IsName "one")
  scalarType := (by decide : Names.isTypePath "f64" = true)
  identityLiteral := (⟨by decide, by simp⟩ : IsPlainValue "1.0")
  extraConstants := by simp

/-- A definition stays lexically sound when a directive of the grammar sets a field. -/
theorem IsLexical.setIn {d : Definition} (h : d.IsLexical) {directive : Directive}
    (hdirective : directive.IsLexical) : (directive.setIn d).IsLexical := by
  cases directive with
  | output | root | symbols => exact { h with }
  | scalar type literal =>
    refine { h with scalarType := hdirective.1, identityLiteral := ?_ }
    cases literal with
    | none => exact h.identityLiteral
    | some value => exact hdirective.2 value rfl
  | unitless name => exact { h with unitlessConstant := hdirective }
  | units names => exact { h with units := hdirective }
  | constants names => exact { h with constants := hdirective }
  | extra constant =>
    refine { h with extraConstants := List.forall_mem_append.mpr ⟨h.extraConstants, ?_⟩ }
    exact List.forall_mem_singleton.mpr hdirective

/-- Directives of the grammar leave a definition lexically sound. -/
theorem IsLexical.foldl_setIn {d : Definition} (h : d.IsLexical) (directives : List Directive)
    (hdirectives : ∀ directive ∈ directives, directive.IsLexical) :
    (directives.foldl Directive.setIn d).IsLexical := by
  induction directives generalizing d with
  | nil => exact h
  | cons directive directives ih =>
    obtain ⟨hdirective, hdirectives⟩ := List.forall_mem_cons.mp hdirectives
    exact ih (h.setIn hdirective) hdirectives

end Definition

namespace Directive

/-- The file that a directive names for the output. -/
def output? : Directive → Option String
  | output target => some target
  | _ => none

/-- The scalar type that a directive declares. -/
def scalarType? : Directive → Option String
  | scalar type _ => some type
  | _ => none

/-- The literal one that a directive declares. -/
def literal? : Directive → Option String
  | scalar _ literal => literal
  | _ => none

/-- The dimensionless constant that a directive declares. -/
def unitless? : Directive → Option String
  | unitless name => some name
  | _ => none

/-- The allowed root that a directive declares. -/
def allowedRoot? : Directive → Option Int64
  | root digits => root? digits
  | _ => none

/-- The base units that a directive declares. -/
def units? : Directive → Option (List String)
  | units names => some names
  | _ => none

/-- The symbols that a directive declares. -/
def symbols? : Directive → Option (List String)
  | symbols texts => some texts
  | _ => none

/-- The constants of the base units that a directive declares. -/
def constants? : Directive → Option (List String)
  | constants names => some names
  | _ => none

/-- The extra constant that a directive declares. -/
def extra? : Directive → Option ExtraConstant
  | extra constant => some constant
  | _ => none

end Directive

/-- A definition with a name that directives declare, of which only those for extra constants stand
more than once: every field is declared or has its default. -/
structure Definition.IsDeclaredBy (d : Definition) (name : String) (directives : List Directive) :
    Prop where
  once : (Directive.singleWords directives).Nodup
  name : d.name = name
  output : d.output = directives.findSome? Directive.output?
  scalarType : d.scalarType = (directives.findSome? Directive.scalarType?).getD "f64"
  identityLiteral : d.identityLiteral = (directives.findSome? Directive.literal?).getD "1.0"
  unitlessConstant : d.unitlessConstant = (directives.findSome? Directive.unitless?).getD "one"
  allowedRoot : d.allowedRoot = (directives.findSome? Directive.allowedRoot?).getD 1
  units : d.units = (directives.findSome? Directive.units?).getD []
  symbols : d.symbols = (directives.findSome? Directive.symbols?).getD []
  constants : d.constants = (directives.findSome? Directive.constants?).getD []
  extraConstants : d.extraConstants = directives.filterMap Directive.extra?

/-- A field that only the directives with one word set has what the single such directive says. -/
theorem field_foldl_setIn {α : Type} (field : Definition → α) (get : Directive → Option α)
    (word : String) (hword : word ≠ "extra")
    (hget : ∀ directive, directive.word ≠ word → get directive = none)
    (hset : ∀ d directive, field (directive.setIn d) = (get directive).getD (field d))
    (directives : List Directive) (hnodup : (Directive.singleWords directives).Nodup)
    (d : Definition) : field (directives.foldl Directive.setIn d) =
      (directives.findSome? get).getD (field d) := by
  induction directives generalizing d with
  | nil => rfl
  | cons directive directives ih =>
    rw [← List.singleton_append, singleWords_append, List.nodup_append] at hnodup
    obtain ⟨-, hrest, hdisjoint⟩ := hnodup
    rw [List.foldl_cons, ih hrest, hset, List.findSome?_cons]
    cases hdirective : get directive with
    | none => rfl
    | some value =>
      have hsingle (other : Directive) (hother : other.word = word) :
          (!other.mayRepeat) = true := by
        rw [mayRepeat_eq, hother]
        simpa using hword
      have hfound : directive.word = word := by
        by_contra hne
        rw [hget directive hne] at hdirective
        contradiction
      have hnone : directives.findSome? get = none := by
        rw [List.findSome?_eq_none_iff]
        intro other hother
        by_cases heq : other.word = word
        · exfalso
          refine hdisjoint word ?_ word ?_ rfl
          · simp [Directive.singleWords, hsingle directive hfound, hfound]
          · exact heq ▸ List.mem_map_of_mem (List.mem_filter.mpr ⟨hother, hsingle other heq⟩)
        · exact hget other heq
      rw [hnone]
      rfl

/-- The extra constants are those of the directives for them, in order. -/
theorem extraConstants_foldl_setIn (directives : List Directive) (d : Definition) :
    (directives.foldl Directive.setIn d).extraConstants =
      d.extraConstants ++ directives.filterMap Directive.extra? := by
  induction directives generalizing d with
  | nil => simp
  | cons directive directives ih =>
    rw [List.foldl_cons, ih]
    cases directive with
    | extra constant =>
      exact List.append_assoc d.extraConstants [constant] (directives.filterMap Directive.extra?)
    | _ => rfl

/-- The name of a definition is set by no directive. -/
theorem name_foldl_setIn (directives : List Directive) (d : Definition) :
    (directives.foldl Directive.setIn d).name = d.name := by
  induction directives generalizing d with
  | nil => rfl
  | cons directive directives ih =>
    rw [List.foldl_cons, ih]
    cases directive <;> rfl

/-- The definition of a system is what its directives declare. -/
theorem isDeclaredBy_of_ofText {source : String} {system : SystemText} {d : Definition}
    (h : Definition.ofText source system = .ok d) :
    d.IsDeclaredBy system.name (system.directives.map (·.2)) := by
  obtain ⟨-, hnodup, rfl⟩ := (ofText_eq_ok_iff _ _ _).mp h
  generalize system.directives.map (·.2) = directives at hnodup
  have hfield {α : Type} (field : Definition → α) (get : Directive → Option α)
      (word : String) (hword : word ≠ "extra")
      (hget : ∀ directive, directive.word ≠ word → get directive = none)
      (hset : ∀ d directive, field (directive.setIn d) = (get directive).getD (field d)) :=
    field_foldl_setIn field get word hword hget hset directives hnodup { name := system.name }
  refine
    { once := hnodup
      name := name_foldl_setIn _ _
      output := (hfield (·.output) (Option.map some ∘ Directive.output?) "output"
        (by decide) ?_ ?_).trans ?_
      scalarType := hfield (·.scalarType) _ "scalar" (by decide) ?_ ?_
      identityLiteral := hfield (·.identityLiteral) _ "scalar" (by decide) ?_ ?_
      unitlessConstant := hfield (·.unitlessConstant) _ "unitless" (by decide) ?_ ?_
      allowedRoot := hfield (·.allowedRoot) _ "root" (by decide) ?_ ?_
      units := hfield (·.units) _ "units" (by decide) ?_ ?_
      symbols := hfield (·.symbols) _ "symbols" (by decide) ?_ ?_
      constants := hfield (·.constants) _ "constants" (by decide) ?_ ?_
      extraConstants := extraConstants_foldl_setIn _ _ }
  case refine_3 =>
    rw [← List.map_findSome?]
    cases directives.findSome? Directive.output? <;> rfl
  -- a directive with another word says nothing about the field, and every one sets what it says
  case refine_1 | refine_4 | refine_6 | refine_8 | refine_10 | refine_12 | refine_14 | refine_16 =>
    intro directive hne
    cases directive <;> first | rfl | exact absurd rfl hne
  all_goals
    intro d directive
    cases directive <;> rfl

/-- The definitions of a text belong to its systems one by one. -/
theorem ofTexts_eq_ok_iff (source : String) (systems : List SystemText) (ds : List Definition) :
    Definition.ofTexts source systems = .ok ds ↔
      List.Forall₂ (fun system d => Definition.ofText source system = .ok d) systems ds := by
  induction systems generalizing ds with
  | nil =>
    rw [List.forall₂_nil_left_iff]
    exact ⟨fun h => (Except.ok.inj h).symm, fun h => h ▸ rfl⟩
  | cons system systems ih =>
    rw [ofTexts_cons_eq_ok_iff, List.forall₂_cons_left_iff]
    simp only [ih, exists_and_left]

/-- The definition of a lexically sound system is lexically sound. -/
theorem isLexical_of_ofText {source : String} {system : SystemText} {d : Definition}
    (hsystem : system.IsLexical) (h : Definition.ofText source system = .ok d) : d.IsLexical := by
  obtain ⟨-, -, rfl⟩ := (ofText_eq_ok_iff _ _ _).mp h
  have hset := (Definition.isLexical_default _ hsystem.name).foldl_setIn _ hsystem.directives
  exact { hset with }

/-- Every definition of an accepted text is lexically sound. -/
theorem isLexical_of_parse {text : String} {source : Option String} {limits : Limits}
    {ds : List Definition} (h : DefinitionFile.parse text source limits = .ok ds) :
    ∀ d ∈ ds, d.IsLexical := by
  obtain ⟨-, found, hfound, hds⟩ := (parse_eq_ok_iff _ _ _ _).mp h
  have hof := (ofTexts_eq_ok_iff _ _ _).mp hds
  intro d hd
  obtain ⟨i, hi, rfl⟩ := List.mem_iff_getElem.mp hd
  have hlength : i < found.length := hof.length_eq ▸ hi
  exact isLexical_of_ofText (hfound.isLexical found[i] (List.getElem_mem hlength))
    (hof.get hlength hi)

/-- Every definition of an accepted text is declared by one system of the text, whose directives
stand in the text one behind the other. Its names are words other than those of the definition file,
its scalar type is a path, and its literal and the values of its extra constants are plain. So
whatever validation reports of it within any limits, its scalar type is not, and none of its names
as no identifier but the single underscore and the words that the generated language keeps. -/
theorem parse_lexical (text : String) (source : Option String) (limits : Limits)
    (ds : List Definition) (h : DefinitionFile.parse text source limits = .ok ds) :
    ∃ found,
      DefinitionFile.systems text.toList (source.getD DefinitionFile.unnamedSource) = .ok found ∧
      (∀ system ∈ found, system.IsLexical) ∧
      List.Forall₂ (fun system (d : Definition) =>
        d.IsDeclaredBy system.name (system.directives.map (·.2))) found ds ∧
      ∀ d ∈ ds, d.IsLexical ∧ ∀ limits error, d.validate limits = .error error →
        ∀ defect, Definition.defectError defect ∈ error.leaves → defect.IsLexical := by
  obtain ⟨-, found, hfound, hds⟩ := (parse_eq_ok_iff _ _ _ _).mp h
  have hlexical := hfound.isLexical
  have hof := (ofTexts_eq_ok_iff _ _ _).mp hds
  refine ⟨found, (systems_eq_ok_iff _ _ _).mpr hfound, hlexical,
    hof.imp fun _ _ => isDeclaredBy_of_ofText, fun d hd => ?_⟩
  have hlexical := isLexical_of_parse h d hd
  exact ⟨hlexical, fun limits error herror defect =>
    hlexical.isLexical_of_reported limits error herror defect⟩

/-- Of a system with a unit called `fn` the name of that unit is reported, and it is a word that the
generated language keeps. -/
theorem parse_lexical_kept :
    let text := "system Motion # one\n\n  units _fn,\n fn,\n\textra half = 0.5 * fn  # two\n" ++
      "symbols m, \"s\"\nextra two= 2\nconstants metre, second\nscalar ::core::f32"
    let d : Definition :=
      { name := "Motion", units := ["_fn", "fn"], symbols := ["m", "s"],
        constants := ["metre", "second"], scalarType := "::core::f32",
        extraConstants := [⟨"half", "0.5 * fn"⟩, ⟨"two", "2"⟩], source := some "<input>",
        span := some ⟨0, 139, 1, 1⟩ }
    let defect := Defect.unitNotIdentifier "fn"
    DefinitionFile.parse text none {} = .ok [d] ∧
      d.validate {} = .error (Definition.defectError defect) ∧ d.IsLexical ∧ defect.IsLexical ∧
      ∃ system : SystemText, d.IsDeclaredBy system.name (system.directives.map (·.2)) := by
  intro text d defect
  have hparse : DefinitionFile.parse text none {} = .ok [d] :=
    eq_ok_of_toOption _ _ (by decide +kernel)
  have hreported : d.validate {} = .error (Definition.defectError defect) := by
    have hdefects : d.listDefect = none ∧ d.limitError {} = none ∧ d.defects = [defect] :=
      ⟨by decide +kernel, by rfl, by decide +kernel⟩
    rw [Definition.validate, hdefects.1]
    dsimp only
    rw [hdefects.2.1, hdefects.2.2]
    rfl
  obtain ⟨found, -, -, hof, hd⟩ := parse_lexical text none {} [d] hparse
  obtain ⟨hlexical, hdefect⟩ := hd d (List.mem_singleton_self d)
  obtain ⟨system, _, hdeclared, -, -⟩ := List.forall₂_cons_right_iff.mp hof
  exact ⟨hparse, hreported, hlexical,
    hdefect {} _ hreported defect (List.mem_singleton_self _), system, hdeclared⟩

end UnitSystems
