import UnitSystems.Generated.File
import UnitSystems.Proofs.Generated.Lines
import UnitSystems.Proofs.Specification.Positions

/-!
# What aliases and constants denote

The section of aliases is read line by line, and the integers of each type are counted. The type of
the numbers has a zero for every base unit, and the type of a base unit has the root at the position
of the unit and zero elsewhere. The section of constants has one constant for each alias. The
literal is copied as it stands, so a constant takes up as many lines as the literal.
-/

namespace UnitSystems.Generated

/-- A name for the type of a system at fixed exponents. -/
structure Alias where
  name : String
  system : String
  exponents : List Int
  deriving DecidableEq, Repr

/-- The alias that a line declares. -/
def readAlias (line : String) : Option Alias := do
  let rest ← expect [.word "pub", .word "type"] (tokens line.toList)
  let (name, rest) ← readName rest
  let rest ← expect [.mark '='] rest
  let (system, rest) ← readName rest
  let rest ← expect [.mark '<'] rest
  let (exponents, rest) ← readJoined (.mark ',') readExponent rest
  let rest ← expect [.mark '>', .mark ';'] rest
  if rest = [] then some ⟨name, system, exponents⟩ else none

/-- The name of the constant that a line begins to declare, and the alias that types it. -/
def readConstant (line : String) : Option (String × String) := do
  let rest ← expect [.word "pub", .word "const"] (tokens line.toList)
  let (name, rest) ← readName rest
  let rest ← expect [.mark ':', .word "Dim", .mark '<'] rest
  let (type, rest) ← readName rest
  let _ ← expect [.mark ','] rest
  some (name, type)

namespace Alias

/-- The type that an alias names. -/
def type (a : Alias) : DimensionType :=
  ⟨a.system, a.exponents.map .exponent⟩

/-- The line that declares an alias. -/
def line (a : Alias) : String :=
  "pub type " ++ a.name ++ " = " ++ a.type.text ++ ";"

/-- Aliases between words, with an exponent at least. -/
structure IsSpelled (a : Alias) : Prop where
  name : IsWordText a.name
  system : IsWordText a.system
  exponents : a.exponents ≠ []

/-- The arguments of the type are spelled integers. -/
theorem type_text (a : Alias) :
    a.type.text = a.system ++ "<" ++ Text.listed (a.exponents.map peano) ++ ">" := by
  rw [type, DimensionType.text, List.map_map]
  rfl

/-- The line of an alias is one line. -/
theorem IsSpelled.isUnbroken {a : Alias} (h : a.IsSpelled) : IsUnbroken a.line := by
  have hexponents : IsUnbroken (Text.listed (a.exponents.map peano)) :=
    isUnbroken_listed _ (List.forall_mem_map.mpr fun value _ => isUnbroken_peano value)
  simp only [line, type_text, isUnbroken_append_iff, isUnbroken_of_isWordText _ h.name,
    isUnbroken_of_isWordText _ h.system, hexponents, and_true, true_and]
  decide

/-- An alias is read back from its line. -/
theorem IsSpelled.readAlias_line {a : Alias} (h : a.IsSpelled) : readAlias a.line = some a := by
  have htokens : tokens a.line.toList = .word "pub" :: .word "type" :: .word a.name :: .mark '=' ::
      .word a.system :: .mark '<' ::
        (joined (.mark ',') (a.exponents.map exponentTokens) ++ [.mark '>', .mark ';']) := by
    have hend : tokens (">".toList ++ ";".toList) = [.mark '>', .mark ';'] := by decide
    simp only [line, type_text, String.toList_append, List.append_assoc]
    rw [tokens_append "pub type ".toList _ [.word "pub", .word "type"],
      tokens_word_append a.name h.name " = ".toList _ [.mark '='],
      tokens_word_append a.system h.system "<".toList _ [.mark '<'],
      tokens_listed peano exponentTokens a.exponents (fun value _ => tokens_peano value) _
        (separated_append _ _), hend]
    rfl
  have hexponents := readJoined_joined (.mark ',') readExponent exponentTokens (fun _ => True)
    a.exponents h.exponents [.mark '>', .mark ';'] (fun _ => trivial) trivial (by simp)
    (fun value _ => exponentTokens_ne_nil value) (fun value _ more _ => readExponent_tokens value more)
  simp only [readAlias, htokens, expect_cons_self, expect_nil, readName_word, hexponents, bind,
    Option.bind, ↓reduceIte]

end Alias

/-- The alias of the numbers: zero for every base unit. -/
def unitlessAlias (s : Specification) : Alias :=
  ⟨unitlessName, s.name, List.replicate s.arity 0⟩

/-- The alias of a base unit: the root at its position and zero elsewhere. -/
def unitAlias (s : Specification) (position : Nat) (name : String) : Alias :=
  ⟨name, s.name, (List.replicate s.arity 0).set position s.allowedRoot.toNat⟩

/-- The alias of the numbers is spelled with words. -/
theorem isSpelled_unitlessAlias (s : Specification) (hs : s.IsValid) :
    (unitlessAlias s).IsSpelled where
  name := (by decide : IsWordText unitlessName)
  system := isWordText_of_isIdentifier s.name hs.name
  exponents := by
    simpa [unitlessAlias, ← s.length_identifiers] using hs.nonempty

/-- The alias of a base unit is spelled with words. -/
theorem isSpelled_unitAlias (s : Specification) (hs : s.IsValid) (position : Nat) (name : String)
    (hname : name ∈ s.identifiers) : (unitAlias s position name).IsSpelled where
  name := isWordText_of_isIdentifier name (hs.identifiers name hname)
  system := isWordText_of_isIdentifier s.name hs.name
  exponents := by
    simpa [unitAlias, ← s.length_identifiers] using hs.nonempty

/-- The lines of the section of aliases. -/
theorem lines_aliases (s : Specification) : (aliases s).flatMap Item.lines =
    (unitlessAlias s).line :: "impl Dimensionless for Unitless \x7b\x7d" :: "" ::
      (s.identifiers.mapIdx fun position name => (unitAlias s position name).line) ++ [""] := by
  have hunitless : unitlessType s = (unitlessAlias s).type := by
    rw [unitlessAlias, Alias.type, List.map_replicate]
    rfl
  have hunit (position : Nat) (name : String) :
      unitType s position = (unitAlias s position name).type := by
    rw [unitAlias, Alias.type, ← s.arguments_unitType]
    rfl
  have hunits : (s.identifiers.mapIdx fun position name =>
      Item.typeAlias name (unitType s position)).flatMap Item.lines =
        s.identifiers.mapIdx fun position name => (unitAlias s position name).line := by
    rw [List.mapIdx_eq_zipIdx_map, List.mapIdx_eq_zipIdx_map, List.flatMap_map, List.map_eq_flatMap]
    refine List.flatMap_congr fun ⟨name, position⟩ _ => ?_
    exact congrArg (fun type => (Item.typeAlias name type).lines) (hunit position name)
  rw [aliases, List.flatMap_append, List.flatMap_append, hunits, hunitless]
  rfl

/-- The section of aliases, line by line: the alias of the numbers and its marker, then the alias of
each base unit, in order. -/
theorem linesOf_aliases (s : Specification) (hs : s.IsValid) :
    ∃ first units, linesOf (render (aliases s)) =
        first :: "impl Dimensionless for Unitless \x7b\x7d" :: "" :: units ++ [""] ∧
      readAlias first = some (unitlessAlias s) ∧
      units.map readAlias =
        s.identifiers.mapIdx fun position name => some (unitAlias s position name) := by
  have hunitless := isSpelled_unitlessAlias s hs
  have hunit := isSpelled_unitAlias s hs
  refine ⟨(unitlessAlias s).line,
    s.identifiers.mapIdx fun position name => (unitAlias s position name).line, ?_,
    hunitless.readAlias_line, ?_⟩
  · rw [render, lines_aliases]
    refine linesOf_unlines_of_isUnbroken _ fun line hline => ?_
    simp only [List.cons_append, List.mem_cons, List.mem_append, List.mem_mapIdx, List.not_mem_nil,
      or_false] at hline
    rcases hline with rfl | rfl | rfl | ⟨i, hi, rfl⟩ | rfl
    · exact hunitless.isUnbroken
    · decide
    · decide
    · exact (hunit i _ (List.getElem_mem hi)).isUnbroken
    · decide
  · refine List.ext_getElem (by simp) fun i hi _ => ?_
    rw [List.length_map, List.length_mapIdx] at hi
    simp only [List.getElem_map, List.getElem_mapIdx]
    exact (hunit i _ (List.getElem_mem hi)).readAlias_line

/-- How the line of a constant begins, up to its scalar type. -/
def constantHead (name type : String) : String :=
  "pub const " ++ name ++ ": Dim<" ++ type ++ ", "

/-- The name of a constant and its alias are read from how its line begins. -/
theorem readConstant_head (name type : String) (hname : IsWordText name) (htype : IsWordText type)
    (rest : List Char) :
    readConstant (String.ofList ((constantHead name type).toList ++ rest)) = some (name, type) := by
  have htokens : tokens ((constantHead name type).toList ++ rest) = .word "pub" :: .word "const" ::
      .word name :: .mark ':' :: .word "Dim" :: .mark '<' :: .word type :: .mark ',' ::
        tokens rest := by
    simp only [constantHead, String.toList_append, List.append_assoc]
    rw [tokens_append "pub const ".toList _ [.word "pub", .word "const"],
      tokens_word_append name hname ": Dim<".toList _ [.mark ':', .word "Dim", .mark '<'],
      tokens_word_append type htype ", ".toList _ [.mark ',']]
    rfl
  simp only [readConstant, String.toList_ofList, htokens, expect_cons_self, expect_nil,
    readName_word, bind, Option.bind]

/-- The line of a constant begins with its name and its alias, and it breaks in the literal only. -/
theorem exists_readLines_constant (name type scalar literal : String) (hname : IsWordText name)
    (htype : IsWordText type) (hscalar : Names.isTypePath scalar = true) :
    ∃ first others, (Item.constant name type scalar literal).readLines = first :: others ∧
      readConstant first = some (name, type) ∧ others.length = literal.toList.count '\n' := by
  have hhead : IsUnbroken (constantHead name type) := by
    simp only [constantHead, isUnbroken_append_iff, isUnbroken_of_isWordText _ hname,
      isUnbroken_of_isWordText _ htype, and_true]
    decide
  have hscalar := List.count_eq_zero_of_not_mem (isUnbroken_of_isTypePath scalar hscalar)
  obtain ⟨piece, others, htail, hwhole⟩ := Text.split_append_of_notMem '\n'
    (constantHead name type).toList (scalar ++ "> = Dim(" ++ literal ++ ", PhantomData);").toList hhead
  refine ⟨String.ofList ((constantHead name type).toList ++ piece), others.map String.ofList, ?_,
    readConstant_head name type hname htype piece, ?_⟩
  · have hline : (Item.constant name type scalar literal).lines =
        [constantHead name type ++ (scalar ++ "> = Dim(" ++ literal ++ ", PhantomData);")] := by
      simp only [Item.lines, constantHead, String.append_assoc]
    rw [Item.readLines, hline, List.flatMap_singleton, Text.pieces, String.toList_append, hwhole,
      List.map_cons]
  · have hlength := Text.length_split '\n'
      (scalar ++ "> = Dim(" ++ literal ++ ", PhantomData);").toList
    rw [htail, List.length_cons, Nat.succ_inj] at hlength
    rw [List.length_map, hlength]
    simp only [String.toList_append, List.count_append, hscalar]
    simp

/-- The names of the constants, each with the alias that types it. -/
def typedConstants (s : Specification) : List (String × String) :=
  (s.unitlessConstant, unitlessName) :: s.baseUnits.map fun unit => (unit.constant, unit.identifier)

/-- The section of constants is one block of lines for each constant, as long as the literal, and
the first line of a block names the constant and its alias. -/
theorem linesOf_constants (s : Specification)
    (hwords : ∀ constant ∈ typedConstants s, IsWordText constant.1 ∧ IsWordText constant.2)
    (hscalar : Names.isTypePath s.scalarType = true) :
    ∃ blocks : List (List String), linesOf (render (constants s)) = blocks.flatten ∧
      (∀ block ∈ blocks, block.length = s.identityLiteral.toList.count '\n' + 1) ∧
      blocks.map (fun block => block.head?.bind readConstant) = (typedConstants s).map some := by
  have hblock (constant : String × String) (hmem : constant ∈ typedConstants s) :
      ∃ first others,
        (Generated.constant s constant.1 constant.2).readLines = first :: others ∧
          readConstant first = some constant ∧
          others.length = s.identityLiteral.toList.count '\n' :=
    exists_readLines_constant _ _ _ _ (hwords constant hmem).1 (hwords constant hmem).2 hscalar
  refine ⟨(typedConstants s).map fun constant =>
    (Generated.constant s constant.1 constant.2).readLines, ?_, ?_, ?_⟩
  · have hconstants : constants s =
        (typedConstants s).map fun constant => Generated.constant s constant.1 constant.2 := by
      rw [constants, typedConstants, List.map_cons, List.map_map]
      rfl
    rw [linesOf_render, hconstants, List.flatMap_map, List.flatMap_def]
  · rw [List.forall_mem_map]
    intro constant hmem
    obtain ⟨first, others, hlines, -, hlength⟩ := hblock constant hmem
    rw [hlines, List.length_cons, hlength]
  · rw [List.map_map]
    refine List.map_congr_left fun constant hmem => ?_
    obtain ⟨first, others, hlines, hread, -⟩ := hblock constant hmem
    rw [Function.comp_apply, hlines]
    exact hread

end UnitSystems.Generated

namespace UnitSystems

open Generated

/-- A valid system ends its file with its aliases and its constants. Read line by line, with the
wrappers of every exponent counted, the first alias is the one of the numbers, with zeros alone, and
after its marker each base unit has one, in order, with the root at the position of the unit and zero
elsewhere. There is a constant for every alias, in the same order. Each takes up one line more than
the literal has line feeds, so there are as many lines as constants exactly when the literal has
none. Zero and the root have spellings, and the reading is no matter of choice: a 64-bit integer is
spelled by as many wrappers as it is away from zero, with every bracket closed, if a buffer can be
that long, and else not at all, and no two integers are spelled alike. -/
theorem aliases_constants_denote (d : Definition) (limits : Limits) (s : Specification)
    (hs : d.validate limits = .ok s) :
    (∀ options, ∃ before,
      file s options = before ++ render (aliases s) ++ render (constants s)) ∧
    (∃ first units, linesOf (render (aliases s)) =
        first :: "impl Dimensionless for Unitless \x7b\x7d" :: "" :: units ++ [""] ∧
      readAlias first = some ⟨unitlessName, s.name, List.replicate s.arity 0⟩ ∧
      units.map readAlias = s.identifiers.mapIdx fun position name =>
        some ⟨name, s.name, (List.replicate s.arity 0).set position s.allowedRoot.toNat⟩) ∧
    (∃ blocks : List (List String), linesOf (render (constants s)) = blocks.flatten ∧
      (∀ block ∈ blocks, block.length = s.identityLiteral.toList.count '\n' + 1) ∧
      blocks.map (fun block => block.head?.bind readConstant) =
        ((s.unitlessConstant, unitlessName) ::
          s.baseUnits.map fun unit => (unit.constant, unit.identifier)).map some) ∧
    ((linesOf (render (constants s))).length = s.arity + 1 ↔
      '\n' ∉ s.identityLiteral.toList) ∧
    (peano? 0 = some (Argument.exponent 0).text ∧
      peano? (.ofNat s.allowedRoot.toNat) = some (Argument.exponent s.allowedRoot.toNat).text) ∧
    (∀ value : Int64,
      (6 * value.toInt.natAbs + 4 ≤ longestBuffer →
        ∃ text, peano? value = some text ∧ Spells text value.toInt) ∧
      (longestBuffer < 6 * value.toInt.natAbs + 4 → peano? value = none)) ∧
    ∀ (first second : Int64) (text : String),
      peano? first = some text → peano? second = some text → first = second := by
  have hvalid := d.isValid_of_validate limits s hs
  obtain ⟨hconstants, -, -, hnames⟩ := d.constants_of_validate limits s hs
  obtain ⟨-, hscalar, hpath, -⟩ := d.types_of_validate limits s hs
  rw [← hscalar] at hpath
  rw [← hconstants] at hnames
  have hwords : ∀ constant ∈ typedConstants s,
      IsWordText constant.1 ∧ IsWordText constant.2 := by
    have hunitless : IsWordText unitlessName := by decide
    rw [List.forall_mem_cons, List.forall_mem_map] at hnames
    rw [typedConstants, List.forall_mem_cons, List.forall_mem_map]
    exact ⟨⟨isWordText_of_isIdentifier _ hnames.1, hunitless⟩, fun unit hunit =>
      ⟨isWordText_of_isIdentifier _ (hnames.2 unit hunit), isWordText_of_isIdentifier _
        (hvalid.identifiers _ (List.mem_map_of_mem hunit))⟩⟩
  obtain ⟨blocks, hlines, hlengths, hread⟩ := linesOf_constants s hwords hpath
  refine ⟨fun options => ?_, linesOf_aliases s hvalid, ⟨blocks, hlines, hlengths, hread⟩, ?_,
    ⟨peano?_ofNat 0, peano?_ofNat s.allowedRoot⟩, fun value => ⟨fun hroom => ?_,
      (peano?_eq_none_iff value).mpr⟩, peano?_injective⟩
  · rw [file, items, render_append, render_append]
    exact ⟨_, rfl⟩
  · have hcount : blocks.length = s.arity + 1 := by
      have hlength := congrArg List.length hread
      simpa [typedConstants, Specification.arity] using hlength
    have hlength : blocks.flatten.length =
        (s.arity + 1) * (s.identityLiteral.toList.count '\n' + 1) := by
      rw [List.length_flatten, List.map_congr_left hlengths, List.map_const', List.sum_replicate_nat,
        hcount]
    rw [hlines, hlength, Nat.mul_eq_left (Nat.succ_ne_zero _), Nat.succ_inj, List.count_eq_zero]
  · exact ⟨_, (peano?_eq_some_iff value _).mpr ⟨hroom, rfl⟩, spells_peano value.toInt⟩

/-- A system with sixths as exponents has sixes in the aliases of its base units. -/
theorem aliases_constants_denote_motion : ∃ s, motionDefinition.validate {} = .ok s ∧
    (∃ first units, linesOf (render (aliases s)) =
        first :: "impl Dimensionless for Unitless \x7b\x7d" :: "" :: units ++ [""] ∧
      readAlias first = some ⟨"Unitless", "Motion", [0, 0]⟩ ∧
      units.map readAlias =
        [some ⟨"Metre", "Motion", [6, 0]⟩, some ⟨"Second", "Motion", [0, 6]⟩]) ∧
    (linesOf (render (constants s))).length = 3 := by
  obtain ⟨-, haliases, -, hlength, -⟩ :=
    aliases_constants_denote motionDefinition {} _ validate_motionDefinition
  exact ⟨_, validate_motionDefinition, haliases, hlength.mpr (by decide)⟩

/-- A system with a literal on two lines. -/
def brokenDefinition : Definition where
  name := "Motion"
  units := ["Metre"]
  symbols := ["m"]
  constants := ["metre"]
  identityLiteral := "1.0\n+ 0.0"

/-- Nothing is wrong with a literal on two lines, and two constants take up four. The smallest
integer whose spelling is longer than every buffer has none. -/
theorem four_lines_and_no_spelling :
    (∃ s, brokenDefinition.validate {} = .ok s ∧ s.arity = 1 ∧
      (linesOf (render (constants s))).length = 4) ∧
    peano? 1537228672809129301 = none :=
  ⟨⟨brokenDefinition.toSpecification 1, eq_ok_of_toOption _ _ (by decide +kernel), rfl,
    by decide +kernel⟩, (peano?_eq_none_iff 1537228672809129301).mpr (by decide)⟩

end UnitSystems
