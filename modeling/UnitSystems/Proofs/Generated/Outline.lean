import UnitSystems.Proofs.DefinitionFile.Declared
import UnitSystems.Proofs.Generated.Algebra
import UnitSystems.Proofs.Generated.Aliases
import UnitSystems.Proofs.Generated.Display

/-!
# The outline of a generated file

Four beginnings of lines tell what a line declares: the dimension type, an implementation for all
exponents, an alias or a constant. The declarations of a file stand in the order of its sections,
and like the number of lines they depend on nothing but the number of base units and the table of
the units. No name, symbol, type or value of a definition file adds a line or breaks one.
-/

namespace UnitSystems.Generated

/-- What a line declares. -/
inductive Heading
  | record
  | implementation (name : String)
  | typeAlias
  | constant
  deriving DecidableEq, Repr

/-- How a line begins that declares something. -/
def Heading.start : Heading → String
  | record => "pub struct "
  | implementation _ => "impl<"
  | typeAlias => "pub type "
  | constant => "pub const "

/-- The trait that a line implements: the word after the brackets of its parameters. -/
def implementedTrait (line : String) : String :=
  String.ofList (((line.toList.dropWhile (· ≠ '>')).drop 2).takeWhile Names.isRest)

/-- What a line declares, by how it begins. -/
def heading? (line : String) : Option Heading :=
  [.record, .implementation (implementedTrait line), .typeAlias, .constant].find? fun heading =>
    heading.start.toList.isPrefixOf line.toList

/-- A line declares what it begins with, and an implementation is one of the trait it names. -/
theorem heading?_eq_some_iff (line : String) (heading : Heading) : heading? line = some heading ↔
    heading.start.toList <+: line.toList ∧
      ∀ name, heading = .implementation name → name = implementedTrait line := by
  constructor
  · intro h
    have hmem := List.mem_of_find?_eq_some h
    simp only [List.mem_cons, List.not_mem_nil, or_false] at hmem
    rw [heading?] at h
    have hstart := List.find?_some h
    refine ⟨List.isPrefixOf_iff_prefix.mp hstart, fun name hname => ?_⟩
    subst hname
    simpa using hmem
  -- no beginning is one of another
  · rintro ⟨⟨rest, hline⟩, hname⟩
    cases heading with
    | implementation name =>
      rw [hname name rfl]
      simp [heading?, ← hline, Heading.start]
    | _ => simp [heading?, ← hline, Heading.start]

/-- A line declares nothing that begins with another letter than declarations. -/
theorem heading?_eq_none (line : String) (c : Char) (hline : line.toList.head? = some c)
    (hp : c ≠ 'p') (hi : c ≠ 'i') : heading? line = none := by
  obtain ⟨rest, hrest⟩ := List.head?_eq_some_iff.mp hline
  simp [heading?, hrest, Heading.start, hp.symm, hi.symm]

/-- The trait of an implementation is read behind its parameters. -/
theorem heading?_implementation (line name : String) (parameters rest : List Char)
    (hline : line.toList = "impl<".toList ++ parameters ++ "> ".toList ++ name.toList ++ rest)
    (hparameters : '>' ∉ parameters) (hname : IsWordText name) (hrest : Separated rest) :
    heading? line = some (.implementation name) := by
  rw [heading?_eq_some_iff]
  refine ⟨⟨parameters ++ "> ".toList ++ name.toList ++ rest, ?_⟩, ?_⟩
  · rw [hline]
    simp only [Heading.start, List.append_assoc]
  · rintro _ ⟨⟩
    have hopen : ∀ c ∈ "impl<".toList ++ parameters, decide (c ≠ '>') = true := by
      rw [List.forall_mem_append]
      exact ⟨List.all_eq_true.mp rfl,
        fun c hc => decide_eq_true fun heq => hparameters (heq ▸ hc)⟩
    have hword : (name.toList ++ rest).takeWhile Names.isRest = name.toList := by
      rw [List.takeWhile_append_of_pos hname.2]
      cases rest with
      | nil => simp
      | cons c rest => simp [hrest c rfl]
    rw [implementedTrait, hline, List.append_assoc, List.append_assoc,
      List.dropWhile_append_of_pos hopen]
    exact (String.ofList_toList.symm.trans (congrArg String.ofList hword.symm) : name = _)

/-- What a block of lines adds to a file: none of the lines breaks, and so many there are with these
declarations. -/
structure HasOutline (lines : List String) (headings : List Heading) (count : Nat) : Prop where
  unbroken : ∀ line ∈ lines, IsUnbroken line
  headings : lines.filterMap heading? = headings
  count : lines.length = count

/-- The outline of lines that declare nothing. -/
theorem hasOutline_plain (lines : List String)
    (h : ∀ line ∈ lines, IsUnbroken line ∧ heading? line = none) :
    HasOutline lines [] lines.length :=
  ⟨fun line hline => (h line hline).1,
    List.filterMap_eq_nil_iff.mpr fun line hline => (h line hline).2, rfl⟩

/-- The outline of a line with a declaration. -/
theorem hasOutline_heading (line : String) (heading : Heading) (hline : IsUnbroken line)
    (hheading : heading? line = some heading) : HasOutline [line] [heading] 1 :=
  ⟨List.forall_mem_singleton.mpr hline, by rw [List.filterMap_cons_some hheading]; rfl, rfl⟩

/-- The outline of two blocks. -/
theorem HasOutline.append {first second : List String} {headings more : List Heading}
    {count others : Nat} (hfirst : HasOutline first headings count)
    (hsecond : HasOutline second more others) :
    HasOutline (first ++ second) (headings ++ more) (count + others) :=
  ⟨List.forall_mem_append.mpr ⟨hfirst.unbroken, hsecond.unbroken⟩,
    by rw [List.filterMap_append, hfirst.headings, hsecond.headings],
    by rw [List.length_append, hfirst.count, hsecond.count]⟩

/-- The number of lines may be written in another way. -/
theorem HasOutline.counted {lines : List String} {headings : List Heading} {count other : Nat}
    (h : HasOutline lines headings count) (hcount : count = other) :
    HasOutline lines headings other :=
  hcount ▸ h

/-- The outline of blocks of one length. -/
theorem hasOutline_flatMap {α : Type} (items : List α) (lines : α → List String)
    (headings : α → List Heading) (count : Nat)
    (h : ∀ item ∈ items, HasOutline (lines item) (headings item) count) :
    HasOutline (items.flatMap lines) (items.flatMap headings) (count * items.length) := by
  induction items with
  | nil => exact ⟨nofun, rfl, rfl⟩
  | cons item items ih =>
    obtain ⟨hitem, hitems⟩ := List.forall_mem_cons.mp h
    rw [List.flatMap_cons, List.flatMap_cons, List.length_cons, Nat.mul_succ, Nat.add_comm]
    exact hitem.append (ih hitems)

/-- The outline of declarations of one kind, each on a line. -/
theorem hasOutline_replicate {α : Type} (items : List α) (lines : α → List String)
    (heading : Heading) (h : ∀ item ∈ items, HasOutline (lines item) [heading] 1) :
    HasOutline (items.flatMap lines) (List.replicate items.length heading) items.length := by
  have hitems := hasOutline_flatMap items lines (fun _ => [heading]) 1 h
  rwa [← List.map_eq_flatMap, List.map_const', Nat.one_mul] at hitems

/-- No line feed stands between the quotes of a literal. -/
theorem isUnbroken_quoted (text : String) : IsUnbroken (Text.quoted text) := by
  have hdigit : ∀ digit < 16, Nat.digitChar digit ≠ '\n' := by decide
  have hnumber (c : Char) : '\n' ∉ Text.hexadecimal c := by
    intro hmem
    obtain ⟨digit, hlt, heq⟩ := exists_of_mem_toDigits c.toNat _ hmem
    exact hdigit digit hlt heq.symm
  have hchar (c : Char) : '\n' ∉ Text.escapeChar c := by
    unfold Text.escapeChar
    split_ifs with _ _ _ hline
    iterate 6 · decide
    · simp [Text.escapeByNumber, hnumber]
    · simpa using Ne.symm hline
  simp [IsUnbroken, Text.quoted, hchar]

/-- No line feed stands in a decimal numeral. -/
theorem isUnbroken_repr (n : Nat) : IsUnbroken n.repr :=
  isUnbroken_of_isWordText _ (isWordText_repr n)

/-- No line feed stands in an argument. -/
theorem isUnbroken_argument (argument : Argument) (h : argument.IsOpen) :
    IsUnbroken argument.text := by
  cases argument with
  | parameter name => exact isUnbroken_of_isWordText name h
  | projection left exponentTrait right =>
    obtain ⟨hleft, htrait, hright⟩ := h
    simp only [Argument.text, isUnbroken_append_iff, isUnbroken_of_isWordText _ hleft,
      isUnbroken_of_isWordText _ htrait, isUnbroken_of_isWordText _ hright, and_true]
    decide
  | exponent value => exact h.elim

/-- No line feed stands in a dimension type. -/
theorem isUnbroken_type (t : DimensionType) (h : t.IsOpen) : IsUnbroken t.text := by
  have harguments := isUnbroken_listed (t.arguments.map Argument.text)
    (List.forall_mem_map.mpr fun argument hmem => isUnbroken_argument argument (h.2 argument hmem))
  simp only [DimensionType.text, isUnbroken_append_iff, isUnbroken_of_isWordText _ h.1, harguments,
    and_true, true_and]
  decide

/-- No line feed stands in an operand. -/
theorem isUnbroken_operand (operand : Operand) (h : operand.IsOpen) : IsUnbroken operand.text := by
  cases operand with
  | dimension type => exact isUnbroken_type type h
  | parameter name => exact isUnbroken_of_isWordText name h

/-- No line feed stands in a trait. -/
theorem isUnbroken_trait (t : Trait) (h : t.IsOpen) : IsUnbroken t.text := by
  obtain ⟨name, argument⟩ := t
  cases argument with
  | none => exact isUnbroken_of_isWordText name h.1
  | some argument =>
    simp only [Trait.text, isUnbroken_append_iff, isUnbroken_of_isWordText _ h.1,
      isUnbroken_of_isWordText _ (h.2 argument rfl), and_true, true_and]
    decide

/-- The outline of conditions. -/
theorem hasOutline_bounds (bounds : List Bound) (h : ∀ b ∈ bounds, b.IsOpen) :
    HasOutline (bounds.map Bound.line) [] bounds.length := by
  have hbound (b : Bound) (hb : b ∈ bounds) : IsUnbroken b.line ∧ heading? b.line = none := by
    obtain ⟨hsubject, htraits⟩ := h b hb
    constructor
    · have htraits : IsUnbroken (" + ".intercalate (b.traits.map Trait.text)) :=
        notMem_intercalate '\n' " + " (by decide) _
          (List.forall_mem_map.mpr fun t ht => isUnbroken_trait t (htraits t ht))
      simp only [Bound.line, Bound.text, isUnbroken_append_iff, isUnbroken_argument _ hsubject,
        htraits, and_true]
      decide
    · exact heading?_eq_none _ ' ' (by simp [Bound.line]) (by decide) (by decide)
  simpa using hasOutline_plain (bounds.map Bound.line) (List.forall_mem_map.mpr hbound)

/-- The brackets of an implementation are closed behind its parameters. -/
theorem notMem_listed_words (names : List String) (h : ∀ name ∈ names, IsWordText name) :
    '>' ∉ (Text.listed names).toList :=
  notMem_intercalate '>' ", " (by decide) names fun name hname =>
    (h name hname).notMem '>' (by decide)

/-- The outline of an operator: it is implemented once. -/
theorem hasOutline_operation (o : Operation) (h : o.IsOpen) :
    HasOutline o.lines [.implementation o.dimensionTrait] (o.bounds.length + 5) := by
  have hparameters := isUnbroken_listed o.parameters fun name hname =>
    isUnbroken_of_isWordText name (h.parameters name hname)
  have hhead : HasOutline ["impl<" ++ Text.listed o.parameters ++ "> " ++ o.dimensionTrait ++ "<" ++
      o.operand.text ++ "> for " ++ o.target.text] [.implementation o.dimensionTrait] 1 := by
    refine hasOutline_heading _ _ ?_ ?_
    · simp only [isUnbroken_append_iff, hparameters, isUnbroken_of_isWordText _ h.dimensionTrait,
        isUnbroken_operand _ h.operand, isUnbroken_type _ h.target, and_true]
      decide
    · refine heading?_implementation _ _ (Text.listed o.parameters).toList
        ("<".toList ++ (o.operand.text ++ "> for " ++ o.target.text).toList) ?_
        (notMem_listed_words _ h.parameters) h.dimensionTrait (separated_append _ _)
      simp only [String.toList_append, List.append_assoc]
  have houtput : IsUnbroken ("    type Output = " ++ o.output.text ++ ";") := by
    simp only [isUnbroken_append_iff, isUnbroken_type _ h.output, and_true]
    decide
  have hbody := hasOutline_plain ["\x7b", "    type Output = " ++ o.output.text ++ ";", "\x7d"] (by
    simp only [List.forall_mem_cons]
    exact ⟨by decide, ⟨houtput, heading?_eq_none _ ' ' (by simp) (by decide) (by decide)⟩,
      by decide⟩)
  refine (((hhead.append (hasOutline_plain ["where"] (by decide))).append
    (hasOutline_bounds o.bounds h.bounds)).append hbody).counted ?_
  simp only [List.length_cons, List.length_nil]
  omega

/-- The outline of a base unit in the display: nothing is declared, and no symbol breaks a line. -/
theorem hasOutline_arm (a : Arm) (h : IsWordText a.parameter) : HasOutline a.lines [] 5 := by
  refine hasOutline_plain a.lines ?_
  have hquoted := isUnbroken_quoted a.symbol
  have hroot := isUnbroken_repr a.root
  have hplain (line : String) (hline : line.toList.head? = some ' ') : heading? line = none :=
    heading?_eq_none line ' ' hline (by decide) (by decide)
  simp only [Arm.lines, List.forall_mem_cons, isUnbroken_append_iff, hquoted, hroot,
    isUnbroken_of_isWordText _ h, and_true]
  refine ⟨⟨by decide, hplain _ (by simp)⟩, by decide, ⟨by decide, hplain _ (by simp)⟩,
    ⟨by decide, hplain _ (by simp)⟩, by decide⟩

/-- The outline of the display. -/
theorem hasOutline_formatter (f : Formatter) (h : f.IsOpen) :
    HasOutline f.lines [.implementation "DimToString"]
      (f.bounds.length + 5 * f.arms.length + 8) := by
  have hparameters := isUnbroken_listed f.parameters fun name hname =>
    isUnbroken_of_isWordText name (h.parameters name hname)
  have hhead : HasOutline ["impl<" ++ Text.listed f.parameters ++ "> DimToString for " ++
      f.target.text] [.implementation "DimToString"] 1 := by
    refine hasOutline_heading _ _ ?_ ?_
    · simp only [isUnbroken_append_iff, hparameters, isUnbroken_type _ h.target, and_true]
      decide
    · refine heading?_implementation _ _ (Text.listed f.parameters).toList
        (" for ".toList ++ f.target.text.toList) ?_
        (notMem_listed_words _ h.parameters) (by decide) (separated_append _ _)
      simp only [String.toList_append, List.append_assoc]
      rfl
  have harms := hasOutline_flatMap f.arms Arm.lines (fun _ => []) 5 fun a ha =>
    hasOutline_arm a (h.arms a ha)
  rw [List.flatMap_eq_nil_iff.mpr fun _ _ => rfl] at harms
  refine (((((hhead.append (hasOutline_plain ["where"] (by decide))).append
    (hasOutline_bounds f.bounds h.bounds)).append (hasOutline_plain
      ["\x7b", "    fn to_string() -> String \x7b", "        let mut text = String::new();"]
        (by decide))).append harms).append
          (hasOutline_plain ["        text", "    \x7d", "\x7d"] (by decide))).counted ?_
  simp only [List.length_cons, List.length_nil]
  omega

/-- The outline of a comment. -/
theorem hasOutline_comment (marker text : String) (hmarker : marker.toList.head? = some '/')
    (hline : IsUnbroken marker) (htext : IsUnbroken text) :
    HasOutline (Item.comment marker text).lines [] 1 := by
  refine hasOutline_plain [marker ++ text] (List.forall_mem_singleton.mpr ⟨?_, ?_⟩)
  · exact (isUnbroken_append_iff _ _).mpr ⟨hline, htext⟩
  · refine heading?_eq_none _ '/' ?_ (by decide) (by decide)
    rw [String.toList_append, List.head?_append, hmarker, Option.some_or]

/-- The outline of an import. -/
theorem hasOutline_imports (path : String) (names : List String) (hpath : IsUnbroken path)
    (hnames : ∀ name ∈ names, IsUnbroken name) :
    HasOutline (Item.imports path names).lines [] 1 := by
  refine hasOutline_plain _ (List.forall_mem_singleton.mpr ⟨?_, ?_⟩)
  · simp only [braced, isUnbroken_append_iff, hpath, isUnbroken_listed names hnames, and_true]
    decide
  · exact heading?_eq_none _ 'u' (by simp) (by decide) (by decide)

/-- A character that neither continues a word nor stands between words is in no list of bounded
parameters. -/
theorem notMem_listed_bounded (parameters : List String)
    (h : ∀ parameter ∈ parameters, IsWordText parameter) (c : Char) (hc : Names.isRest c = false)
    (hcomma : c ∉ ", ".toList) (hcolon : c ∉ ": ".toList) :
    c ∉ (Text.listed (bounded parameters)).toList := by
  refine notMem_intercalate c ", " hcomma _ (List.forall_mem_map.mpr fun parameter hmem => ?_)
  simp only [String.toList_append, List.mem_append, not_or]
  exact ⟨⟨(h parameter hmem).notMem c hc, hcolon⟩, isWordText_exponentBound.notMem c hc⟩

/-- The outline of the dimension type. -/
theorem hasOutline_record (name : String) (parameters : List String)
    (fields : List (String × String)) (hname : IsWordText name)
    (hparameters : ∀ parameter ∈ parameters, IsWordText parameter)
    (hfields : ∀ field ∈ fields, IsWordText field.1 ∧ IsWordText field.2) :
    HasOutline (Item.record name parameters fields).lines [.record] (fields.length + 3) := by
  have hlisted : IsUnbroken (Text.listed (bounded parameters)) :=
    notMem_listed_bounded parameters hparameters '\n' (by decide) (by decide) (by decide)
  have hhead : HasOutline ["pub struct " ++ name ++ "<" ++ Text.listed (bounded parameters) ++
      "> \x7b"] [.record] 1 := by
    refine hasOutline_heading _ _ ?_ ((heading?_eq_some_iff _ _).mpr ⟨?_, by simp⟩)
    · simp only [isUnbroken_append_iff, isUnbroken_of_isWordText _ hname, hlisted, and_true]
      decide
    · simp [Heading.start]
  have hbody := hasOutline_plain
    (fields.map fun entry => "    " ++ entry.1 ++ ": PhantomData<" ++ entry.2 ++ ">,")
    (List.forall_mem_map.mpr fun field hfield => by
      constructor
      · simp only [isUnbroken_append_iff, isUnbroken_of_isWordText _ (hfields field hfield).1,
          isUnbroken_of_isWordText _ (hfields field hfield).2, and_true]
        decide
      · exact heading?_eq_none _ ' ' (by simp) (by decide) (by decide))
  refine ((((hasOutline_plain ["#[derive(Copy, Clone)]"] (by decide)).append hhead).append
    hbody).append (hasOutline_plain ["\x7d"] (by decide))).counted ?_
  simp only [List.length_cons, List.length_nil, List.length_map]
  omega

/-- The outline of the implementation for the dimension type. -/
theorem hasOutline_dimension (parameters : List String) (target : DimensionType)
    (hparameters : ∀ parameter ∈ parameters, IsWordText parameter) (htarget : target.IsOpen) :
    HasOutline (Item.dimension parameters target).lines [.implementation "Dimension"] 1 := by
  have hlisted : IsUnbroken (Text.listed (bounded parameters)) :=
    notMem_listed_bounded parameters hparameters '\n' (by decide) (by decide) (by decide)
  refine hasOutline_heading _ _ ?_ ?_
  · simp only [braced, isUnbroken_append_iff, hlisted, isUnbroken_type _ htarget, and_true]
    decide
  · refine heading?_implementation _ _ (Text.listed (bounded parameters)).toList
      (" for ".toList ++ (target.text ++ " " ++ braced "").toList) ?_
      (notMem_listed_bounded parameters hparameters '>' (by decide) (by decide) (by decide))
      (by decide) (separated_append _ _)
    simp only [String.toList_append, List.append_assoc]
    rfl

/-- The outline of a constant. -/
theorem hasOutline_constant (name type scalar literal : String) (hname : IsWordText name)
    (htype : IsWordText type) (hscalar : IsUnbroken scalar) (hliteral : IsUnbroken literal) :
    HasOutline (Item.constant name type scalar literal).lines [.constant] 1 := by
  refine hasOutline_heading _ _ ?_ ((heading?_eq_some_iff _ _).mpr ⟨?_, nofun⟩)
  · simp only [isUnbroken_append_iff, isUnbroken_of_isWordText _ hname,
      isUnbroken_of_isWordText _ htype, hscalar, hliteral, and_true]
    decide
  · simp [Heading.start]

/-- The outline of an alias. -/
theorem Alias.IsSpelled.hasOutline {a : Alias} (h : a.IsSpelled) :
    HasOutline [a.line] [.typeAlias] 1 := by
  refine hasOutline_heading _ _ h.isUnbroken ((heading?_eq_some_iff _ _).mpr ⟨?_, nofun⟩)
  simp [Alias.line, Heading.start]

/-- Systems that a file can be generated from without breaking a line: besides its names being
words, no line feed stands in a symbol, in the scalar type or in the literal. -/
structure IsUnbrokenSystem (s : Specification) : Prop where
  valid : s.IsValid
  constants : ∀ name ∈ s.unitlessConstant :: s.baseUnits.map (·.constant), IsWordText name
  symbols : ∀ unit ∈ s.baseUnits, IsUnbroken unit.symbol
  scalarType : IsUnbroken s.scalarType
  identityLiteral : IsUnbroken s.identityLiteral

section

variable {s : Specification} (h : IsUnbrokenSystem s)

include h

/-- The name of the system is a word. -/
theorem IsUnbrokenSystem.name : IsWordText s.name :=
  isWordText_of_isIdentifier s.name h.valid.name

/-- The names of the base units are words. -/
theorem IsUnbrokenSystem.identifiers : ∀ unit ∈ s.identifiers, IsWordText unit := fun unit hunit =>
  isWordText_of_isIdentifier unit (h.valid.identifiers unit hunit)

/-- A base unit has words for its constant and its name. -/
theorem IsUnbrokenSystem.unit (unit : BaseUnit) (hunit : unit ∈ s.baseUnits) :
    IsWordText unit.constant ∧ IsWordText unit.identifier :=
  ⟨h.constants _ (List.mem_cons_of_mem _ (List.mem_map_of_mem hunit)),
    h.identifiers _ (List.mem_map_of_mem hunit)⟩

/-- The outline of the table of the base units. -/
theorem hasOutline_unitTable :
    HasOutline ((unitTable s).flatMap Item.lines) [] (6 + s.arity) := by
  have hcomment (text : String) (htext : IsUnbroken text) :
      HasOutline (Item.comment "//! " text).lines [] 1 :=
    hasOutline_comment _ _ (by decide) (by decide) htext
  have htitle : IsUnbroken ("Base units of the " ++ s.name ++ " unit system.") := by
    simp only [isUnbroken_append_iff, isUnbroken_of_isWordText _ h.name, and_true]
    decide
  have hunitless : IsUnbroken (s.unitlessConstant ++ " | " ++ unitlessName ++ " | -") := by
    simp only [isUnbroken_append_iff,
      isUnbroken_of_isWordText _ (h.constants _ List.mem_cons_self), true_and]
    decide
  have hunits := hasOutline_flatMap s.baseUnits
    (fun unit => (Item.comment "//! "
      (unit.constant ++ " | " ++ unit.identifier ++ " | " ++ unit.symbol)).lines) (fun _ => []) 1
    fun unit hunit => hcomment _ (by
      obtain ⟨hconstant, hidentifier⟩ := h.unit unit hunit
      simp only [isUnbroken_append_iff, isUnbroken_of_isWordText _ hconstant,
        isUnbroken_of_isWordText _ hidentifier, h.symbols unit hunit, and_true]
      decide)
  rw [List.flatMap_eq_nil_iff.mpr fun _ _ => rfl] at hunits
  have htop := (hcomment _ htitle).append ((hasOutline_comment "//!" "" (by decide) (by decide)
    (by decide)).append ((hcomment "Constant | Unit | Print Token" (by decide)).append
      ((hcomment "---|---|---" (by decide)).append (hcomment _ hunitless))))
  rw [unitTable, List.flatMap_append, List.flatMap_append, List.flatMap_map]
  refine ((htop.append hunits).append (hasOutline_plain [""] (by decide))).counted ?_
  rw [Specification.arity, List.length_singleton]
  omega

/-- The outline of the header: the dimension type and its implementation. -/
theorem hasOutline_header (options : Options) (hruntime : IsUnbroken options.runtime) :
    HasOutline ((header s options).flatMap Item.lines) [.record, .implementation "Dimension"]
      (16 + s.arity + if options.unitTable then 6 + s.arity else 0) := by
  have hname := isUnbroken_of_isWordText _ h.name
  have htitle : IsUnbroken ("This file was generated by dimgen from the `" ++ s.name ++
      "` unit system. Do not edit.") := by
    simp only [isUnbroken_append_iff, hname, and_true]
    decide
  have hdoc : IsUnbroken ("Dimension in the " ++ s.name ++
      " unit system: one type-level exponent per base unit.") := by
    simp only [isUnbroken_append_iff, hname, and_true]
    decide
  have htable : HasOutline ((if options.unitTable then unitTable s else []).flatMap Item.lines) []
      (if options.unitTable then 6 + s.arity else 0) := by
    split
    · exact hasOutline_unitTable h
    · exact ⟨nofun, rfl, rfl⟩
  have hlints : HasOutline ((allowedLints.map Item.allow).flatMap Item.lines) [] 4 :=
    hasOutline_plain _ (by decide)
  have himports := hasOutline_imports options.runtime runtimeNames hruntime (by decide)
  have hrecord := hasOutline_record s.name s.identifiers
    (s.baseUnits.map fun unit => (unit.constant, unit.identifier)) h.name h.identifiers
    (List.forall_mem_map.mpr h.unit)
  have hdimension := hasOutline_dimension s.identifiers (typeOfParameters s s.identifiers)
    h.identifiers (isOpen_typeOfParameters s h.valid _ h.identifiers)
  have hblank := hasOutline_plain [""] (by decide)
  have hrest := hblank.append (himports.append ((hasOutline_plain
    (Item.importOne "std::marker::PhantomData").lines (by decide)).append (hblank.append
      ((hasOutline_comment "/// " _ (by decide) (by decide) hdoc).append (hrecord.append
        (hblank.append (hdimension.append hblank)))))))
  rw [header, List.flatMap_append, List.flatMap_append, List.flatMap_append]
  refine ((((hasOutline_comment "// " _ (by decide) (by decide) htitle).append htable).append
    hlints).append hrest).counted ?_
  simp only [List.length_singleton, List.length_map, Specification.arity, Item.lines]
  omega

/-- The outline of the operators between two dimensions. -/
theorem hasOutline_combinations (ops : List CombinationOperator) :
    HasOutline ((combinations s ops).flatMap Item.lines)
      (ops.map fun op => .implementation op.dimensionTrait) ((3 * s.arity + 6) * ops.length) := by
  rw [combinations, List.flatMap_assoc, List.map_eq_flatMap]
  refine hasOutline_flatMap ops _ _ _ fun op _ => ?_
  refine ((hasOutline_operation _ (isOpen_combination s h.valid op)).append
    (hasOutline_plain [""] (by decide))).counted ?_
  simp only [combination_bounds, List.length_append, List.length_map, List.length_singleton,
    s.length_identifiers]
  omega

/-- The outline of the operators that scale a dimension. -/
theorem hasOutline_scalings (ops : List ScalarOperator) :
    HasOutline ((scalings s ops).flatMap Item.lines)
      (ops.map fun op => .implementation op.dimensionTrait) ((2 * s.arity + 7) * ops.length) := by
  rw [scalings, List.flatMap_assoc, List.map_eq_flatMap]
  refine hasOutline_flatMap ops _ _ _ fun op _ => ?_
  refine ((hasOutline_operation _ (isOpen_scaling s h.valid op)).append
    (hasOutline_plain [""] (by decide))).counted ?_
  simp only [scaling_bounds, List.length_append, List.length_map, List.length_singleton,
    s.length_identifiers]
  omega

/-- The outline of the section with the display. -/
theorem hasOutline_display :
    HasOutline ((Generated.formatter s).flatMap Item.lines) [.implementation "DimToString"]
      (6 * s.arity + 9) := by
  refine ((hasOutline_formatter _ (isOpen_display s h.valid)).append
    (hasOutline_plain [""] (by decide))).counted ?_
  simp only [display, List.length_map, List.length_singleton, s.length_identifiers]
  rw [Specification.arity]
  omega

/-- The outline of the aliases. -/
theorem hasOutline_aliases : HasOutline ((aliases s).flatMap Item.lines)
    (List.replicate (s.arity + 1) .typeAlias) (s.arity + 4) := by
  have hfirst := (isSpelled_unitlessAlias s h.valid).hasOutline.append
    (hasOutline_plain ["impl Dimensionless for Unitless \x7b\x7d", ""] (by decide))
  have hunits : HasOutline
      (s.identifiers.mapIdx fun position name => (unitAlias s position name).line)
      (List.replicate s.arity .typeAlias) s.arity := by
    rw [← s.length_identifiers, ← List.length_zipIdx, List.mapIdx_eq_zipIdx_map,
      List.map_eq_flatMap]
    exact hasOutline_replicate _ _ _ fun unit hunit =>
      (isSpelled_unitAlias s h.valid unit.2 unit.1 (List.fst_mem_of_mem_zipIdx hunit)).hasOutline
  rw [lines_aliases, List.replicate_succ, ← List.append_nil (Heading.typeAlias :: _)]
  refine ((hfirst.append hunits).append (hasOutline_plain [""] (by decide))).counted ?_
  simp only [List.length_cons, List.length_nil]
  omega

/-- The outline of the constants. -/
theorem hasOutline_constants : HasOutline ((constants s).flatMap Item.lines)
    (List.replicate (s.arity + 1) .constant) (s.arity + 1) := by
  have hconstant (name type : String) (hname : IsWordText name) (htype : IsWordText type) :
      HasOutline (constant s name type).lines [.constant] 1 :=
    hasOutline_constant _ _ _ _ hname htype h.scalarType h.identityLiteral
  have hunitless := hconstant s.unitlessConstant unitlessName (h.constants _ List.mem_cons_self)
    (by decide)
  have hunits := hasOutline_replicate s.baseUnits
    (fun unit => (constant s unit.constant unit.identifier).lines) .constant
    fun unit hunit => hconstant _ _ (h.unit unit hunit).1 (h.unit unit hunit).2
  rw [constants, List.flatMap_cons, List.flatMap_map, List.replicate_succ]
  exact (hunitless.append hunits).counted (Nat.add_comm _ _)

/-- The outline of a file. -/
theorem hasOutline_items (options : Options) (hruntime : IsUnbroken options.runtime) :
    HasOutline ((items s options).flatMap Item.lines)
      (.record ::
        ["Dimension", "KeepDim", "AddDim", "SubDim", "MulDim", "DivDim", "DimToString"].map
          .implementation ++
        List.replicate (s.arity + 1) .typeAlias ++ List.replicate (s.arity + 1) .constant)
      (62 + 22 * s.arity + if options.unitTable then 6 + s.arity else 0) := by
  simp only [items, List.flatMap_append]
  refine ((((((hasOutline_header h options hruntime).append
    (hasOutline_combinations h CombinationOperator.all)).append
      (hasOutline_scalings h ScalarOperator.all)).append (hasOutline_display h)).append
        (hasOutline_aliases h)).append (hasOutline_constants h)).counted ?_
  simp only [CombinationOperator.all, ScalarOperator.all, List.length_cons, List.length_nil]
  omega

end

/-- The texts of a lexically sound definition that is valid hold no line feeds. -/
theorem isUnbrokenSystem_of_validate (d : Definition) (hd : d.IsLexical) (limits : Limits)
    (s : Specification) (hs : d.validate limits = .ok s) : IsUnbrokenSystem s := by
  have hvalid := d.isValid_of_validate limits s hs
  obtain ⟨hconstants, hliteral, -, hnames⟩ := d.constants_of_validate limits s hs
  obtain ⟨-, hscalar, hpath, -⟩ := d.types_of_validate limits s hs
  refine
    { valid := hvalid
      constants := ?_
      symbols := fun unit hunit hline => ?_
      scalarType := hscalar ▸ isUnbroken_of_isTypePath _ hpath
      identityLiteral := ?_ }
  · rw [hconstants]
    exact fun name hname => isWordText_of_isIdentifier name (hnames name hname)
  · exact absurd (hvalid.symbols unit hunit _ hline) (by decide)
  · rw [hliteral, hd.identityLiteral.trimmed]
    exact fun hline => (hd.identityLiteral.chars _ hline).1 rfl

end UnitSystems.Generated

namespace UnitSystems

open Generated

/-- The file of every valid definition of a definition file has an outline that depends on nothing
but the number of its base units: the dimension type, then the seven implementations, then an alias
for the numbers and one for each base unit, then as many constants. No other line begins like a
declaration. The number of lines depends on the table of the units besides. -/
theorem generated_outline (text : String) (source : Option String) (limits : Limits)
    (ds : List Definition) (hparse : DefinitionFile.parse text source limits = .ok ds)
    (d : Definition) (hd : d ∈ ds) (g : Generator) (s : Specification)
    (hs : d.validate g.limits = .ok s) (hruntime : IsUnbroken g.options.runtime) :
    ∃ file, g.generate d = .ok file ∧
      (linesOf file).filterMap heading? =
        .record ::
          ["Dimension", "KeepDim", "AddDim", "SubDim", "MulDim", "DivDim", "DimToString"].map
            .implementation ++
          List.replicate (d.units.length + 1) .typeAlias ++
          List.replicate (d.units.length + 1) .constant ∧
      (∀ line heading, heading? line = some heading ↔ heading.start.toList <+: line.toList ∧
        ∀ name, heading = .implementation name → name = implementedTrait line) ∧
      (linesOf file).length = 62 + 22 * d.units.length +
        if g.options.unitTable then 6 + d.units.length else 0 := by
  have harity : s.arity = d.units.length := by
    have htypes := congrArg List.length (d.types_of_validate g.limits s hs).1
    rwa [List.length_cons, List.length_cons, s.length_identifiers, Nat.succ_inj] at htypes
  have hsystem := isUnbrokenSystem_of_validate d (isLexical_of_parse hparse d hd) g.limits s hs
  have houtline := hasOutline_items hsystem g.options hruntime
  have hlines : linesOf (Generated.file s g.options) = (items s g.options).flatMap Item.lines :=
    linesOf_unlines_of_isUnbroken _ houtline.unbroken
  rw [← hlines, harity] at houtline
  refine ⟨Generated.file s g.options, ?_, houtline.headings, heading?_eq_some_iff, houtline.count⟩
  rw [Generator.generate, hs]
  rfl

/-- Symbols and a literal that look like the beginnings of declarations declare nothing: two base
units make seven implementations, three aliases and three constants. -/
theorem generated_outline_motion :
    let text := "system Motion\nunits Metre, Second\nsymbols \"pub const\", \"impl<\"\n" ++
      "constants metre, second\nscalar f32 = 1.0 /* pub type */"
    let d : Definition :=
      { name := "Motion", units := ["Metre", "Second"], symbols := ["pub const", "impl<"],
        constants := ["metre", "second"], scalarType := "f32",
        identityLiteral := "1.0 /* pub type */", source := some "<input>",
        span := some ⟨0, 118, 1, 1⟩ }
    let g : Generator := { options := { unitTable := true } }
    DefinitionFile.parse text none {} = .ok [d] ∧ IsUnbroken g.options.runtime ∧
      ∃ s file, d.validate {} = .ok s ∧ g.generate d = .ok file ∧
        (linesOf file).filterMap heading? =
          [.record, .implementation "Dimension", .implementation "KeepDim",
            .implementation "AddDim", .implementation "SubDim", .implementation "MulDim",
            .implementation "DivDim", .implementation "DimToString", .typeAlias, .typeAlias,
            .typeAlias, .constant, .constant, .constant] ∧
        (linesOf file).length = 114 := by
  intro text d g
  have hparse : DefinitionFile.parse text none {} = .ok [d] :=
    eq_ok_of_toOption _ _ (by decide +kernel)
  have hs : d.validate {} = .ok (d.toSpecification 1) :=
    eq_ok_of_toOption _ _ (by decide +kernel)
  have hruntime : IsUnbroken g.options.runtime := by decide
  obtain ⟨file, hfile, hheadings, -, hcount⟩ := generated_outline text none {} [d] hparse d
    (List.mem_singleton_self d) g _ hs hruntime
  exact ⟨hparse, hruntime, _, file, hs, hfile, hheadings, hcount⟩

end UnitSystems
