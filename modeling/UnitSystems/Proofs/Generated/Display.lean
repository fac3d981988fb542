import UnitSystems.Display
import UnitSystems.Proofs.Generated.Denotation
import UnitSystems.Proofs.Generated.Program

/-!
# What the generated display shows

A display runs its choices in order. Of each choice the first branch runs whose pattern accepts
the integer of the type parameter. The quotient in a filled template is the rounded quotient of the
display of dimensions, and so the two displays can differ in the branches and the literals alone.
They do not: for every dimension of a system they show the same text.
-/

namespace UnitSystems.Generated

/-- A template with its pairs of braces filled by the arguments, in order. Doubled braces stand for
single ones. -/
def fill : List Char → List (List Char) → Option (List Char)
  | [], [] => some []
  | '\x7b' :: '\x7b' :: rest, arguments => (fill rest arguments).map ('\x7b' :: ·)
  | '\x7d' :: '\x7d' :: rest, arguments => (fill rest arguments).map ('\x7d' :: ·)
  | '\x7b' :: '\x7d' :: rest, argument :: others => (fill rest others).map (argument ++ ·)
  | c :: rest, arguments =>
    if c = '\x7b' ∨ c = '\x7d' then none else (fill rest arguments).map (c :: ·)
  | [], _ :: _ => none

/-- Whether a pattern accepts an integer. -/
def Pattern.accepts : Pattern → Int → Bool
  | number value, n => n == value
  | binding _, _ => true

/-- What a branch appends for an integer that its pattern accepts. -/
def Branch.text? (b : Branch) (n : Int) : Option String :=
  match b.action with
  | .nothing => some ""
  | .push literal => some literal
  | .pushFilled template literal name divisor =>
    if b.pattern = .binding name then
      (fill template.toList [literal.toList, (Decimal.quotientText n divisor).toList]).map
        String.ofList
    else none

/-- What a choice appends: the first branch that accepts the integer of the parameter runs. -/
def Choice.text? (σ : Substitution) (c : Choice) : Option String := do
  let n ← if σ "ToInt" = none then σ c.parameter else none
  let b ← c.branches.find? fun b => b.pattern.accepts n
  b.text? n

/-- What choices append, one after the other. -/
def textOfChoices (σ : Substitution) : List Choice → Option String
  | [] => some ""
  | c :: choices => do
    let first ← c.text? σ
    let others ← textOfChoices σ choices
    some (first ++ others)

/-- A display for a system matches a dimension: exactly its parameters are given integers, none of
them hides its trait, and its target denotes the dimension. -/
structure Program.Matches (r : Runtime) (σ : Substitution) (p : Program) (system : String)
    (d : Dimension) : Prop where
  parameters : ∀ name, (σ name).isSome = true ↔ name ∈ p.parameters
  visible : σ "DimToString" = none
  target : p.target.Denotes r σ system d

/-- The branches for a base unit append the contribution of the unit. -/
theorem text?_choice (σ : Substitution) (htoInt : σ "ToInt" = none) (unit : BaseUnit)
    (root : UInt32) (exponent : Int32) (hunit : σ unit.identifier = some exponent.toInt) :
    (Arm.choice ⟨unit.identifier, unit.symbol, root.toNat⟩).text? σ =
      some (formatExponent unit.symbol exponent root) := by
  have hfill (symbol quotient : List Char) :
      fill template.toList [symbol, quotient] = some (symbol ++ '^' :: quotient) := by
    show fill ['\x7b', '\x7d', '^', '\x7b', '\x7d'] [symbol, quotient] = _
    simp [fill]
  have haccepts (value : Nat) : (Pattern.number value).accepts exponent.toInt =
      decide (exponent.toInt = value) := rfl
  simp only [Choice.text?, Arm.choice, htoInt, ↓reduceIte, hunit, bind, Option.bind,
    List.find?_cons, haccepts, Int.natCast_zero]
  by_cases hzero : exponent.toInt = 0
  · simp only [hzero, decide_true, Branch.text?, formatExponent, ↓reduceIte]
  · rw [decide_eq_false hzero]
    by_cases hroot : exponent.toInt = root.toNat
    · rw [decide_eq_true hroot]
      simp only [Branch.text?, formatExponent, if_neg hzero, if_pos hroot]
    · have hbinding : (Pattern.binding "n").accepts exponent.toInt = true := rfl
      have htext : String.ofList (unit.symbol.toList ++
          '^' :: (Decimal.quotientText exponent.toInt root.toNat).toList) =
          unit.symbol ++ "^" ++ Decimal.quotientText exponent.toInt root.toNat := by
        rw [← String.toList_inj]
        simp [String.toList_append]
      rw [decide_eq_false hroot]
      simp only [hbinding, Branch.text?, formatExponent, if_neg hzero, if_neg hroot, ↓reduceIte,
        hfill, Option.map_some, htext]

/-- The choices for base units append their contributions, one after the other. -/
theorem textOfChoices_units (σ : Substitution) (htoInt : σ "ToInt" = none) (root : UInt32)
    (units : List BaseUnit) (exponents : List Int32)
    (h : (units.map fun unit => unit.identifier).map σ =
      (exponents.map Int32.toInt).map some) :
    textOfChoices σ (units.map fun unit =>
        Arm.choice ⟨unit.identifier, unit.symbol, root.toNat⟩) =
      some (formatExponents root units exponents) := by
  induction units generalizing exponents with
  | nil => rfl
  | cons unit units ih =>
    cases exponents with
    | nil => simp at h
    | cons exponent exponents =>
      simp only [List.map_cons, List.cons.injEq] at h
      simp only [List.map_cons, textOfChoices, text?_choice σ htoInt unit root exponent h.1,
        ih exponents h.2, formatExponents, bind, Option.bind]

/-- The trait that gives the integer of a type parameter. -/
theorem isWordText_toInt : IsWordText "ToInt" := by decide

/-- The names of the display are words. -/
theorem isOpen_display (s : Specification) (hs : s.IsValid) : (display s).IsOpen := by
  have hunits : ∀ unit ∈ s.identifiers, IsWordText unit := fun unit hunit =>
    isWordText_of_isIdentifier unit (hs.identifiers unit hunit)
  refine
    { parameters := hunits
      target := isOpen_typeOfParameters s hs _ hunits
      bounds := ?_
      arms := ?_ }
  · rw [display, List.forall_mem_map]
    intro unit hunit
    refine isOpen_bound (.parameter unit) (hunits unit hunit) _ fun t ht => ?_
    obtain rfl := List.mem_singleton.mp ht
    refine ⟨isWordText_toInt, ?_⟩
    rintro argument ⟨⟩
  · rw [display, List.forall_mem_map]
    exact fun unit hunit => hunits _ (List.mem_map_of_mem hunit)

/-- The display is read as it is spelled. -/
theorem isOpen_program (s : Specification) (hs : s.IsValid) : (display s).program.IsOpen := by
  have hopen := isOpen_display s hs
  refine
    { parameters := hs.nonempty
      target := ⟨hopen.target, mt List.map_eq_nil_iff.mp hs.nonempty⟩
      bounds := fun b hb => ⟨hopen.bounds b hb, ?_⟩
      choices := ?_ }
  · obtain ⟨unit, -, rfl⟩ := List.mem_map.mp hb
    exact List.cons_ne_nil _ _
  · simp only [Formatter.program, List.forall_mem_map, Arm.choice, List.forall_mem_cons,
      List.not_mem_nil, false_imp_iff, implies_true, and_true]
    exact fun _ _ => ⟨trivial, trivial, by decide, by decide⟩

/-- The text of the display has the tokens of the program. -/
theorem tokens_display (s : Specification) (hs : s.IsValid) :
    tokens (render (formatter s)).toList = (display s).program.tokens := by
  have htokens := tokens_formatter (display s) (isOpen_display s hs) (['\n'] ++ [])
  rw [tokens_lineFeed] at htokens
  rw [render, toList_unlines]
  simpa [formatter, Item.lines, tokens, Scan.run, Scan.finish] using htokens

/-- The display is read as the program. -/
theorem readDisplay_formatter (s : Specification) (hs : s.IsValid) :
    readDisplay (render (formatter s)) = some (display s).program := by
  have hread := readProgram_tokens (display s).program (isOpen_program s hs) []
  rw [List.append_nil] at hread
  rw [readDisplay, tokens_display s hs, hread]

/-- A display gives its parameters no name that the generated file uses. -/
theorem Program.Matches.eq_none (r : Runtime) (σ : Substitution) (s : Specification)
    (hs : s.IsValid) (v : Dimension) (h : (display s).program.Matches r σ s.name v) (name : String)
    (hname : name ∈ Names.reserved) : σ name = none := by
  rw [← Option.not_isSome_iff_eq_none, h.parameters]
  exact fun hunit => hs.reserved name hunit hname

/-- Every dimension of a system is matched by the display. -/
theorem exists_matches_display (r : Runtime) (s : Specification) (hs : s.IsValid) (v : Dimension)
    (hv : v.arity = s.arity) : ∃ σ, (display s).program.Matches r σ s.name v := by
  have hlength : s.identifiers.length = v.values.length := by
    rw [v.length_values, hv]
    exact s.length_identifiers
  obtain ⟨σ, hdomain, hvalues⟩ := exists_substitution s.identifiers hs.nodup v.values hlength
  have hnone (name : String) (hname : name ∉ s.identifiers) : σ name = none := by
    rw [← Option.not_isSome_iff_eq_none, hdomain]
    exact hname
  have htrait : "DimToString" ∈ Names.reserved := by decide
  exact ⟨σ, hdomain, hnone _ fun hunit => hs.reserved _ hunit htrait,
    (denotes_parameters_iff r σ s s.identifiers v).mpr ⟨hnone _ hs.system, hvalues⟩⟩

/-- The conditions of a display that matches hold where every integer has their traits. -/
theorem holds_display (r : Runtime) (σ : Substitution) (s : Specification) (hs : s.IsValid)
    (v : Dimension) (h : (display s).program.Matches r σ s.name v)
    (hr : ∀ m, r.has "Peano" m ∧ r.has "ToInt" m) :
    ∀ b ∈ (display s).program.bounds, b.Holds r σ := by
  have hpeano := h.eq_none r σ s hs v "Peano" (by decide)
  have htoInt := h.eq_none r σ s hs v "ToInt" (by decide)
  obtain ⟨-, hvalues⟩ := (denotes_parameters_iff r σ s _ v).mp h.target
  obtain ⟨m, -, hm⟩ := exists_values _ _ _ hvalues
  simp only [Formatter.program, display, List.forall_mem_map]
  intro unit hunit
  refine ⟨m unit, hm unit hunit, ?_⟩
  rw [List.forall_mem_cons, List.forall_mem_singleton]
  exact ⟨⟨hpeano, (hr (m unit)).1⟩, htoInt, (hr (m unit)).2⟩

/-- A display that matches a dimension shows its text. -/
theorem textOfChoices_display (r : Runtime) (σ : Substitution) (s : Specification)
    (hs : s.IsValid) (v : Dimension) (h : (display s).program.Matches r σ s.name v) :
    textOfChoices σ (display s).program.choices =
      some (formatExponents s.allowedRoot s.baseUnits v.exponents) := by
  have htoInt := h.eq_none r σ s hs v "ToInt" (by decide)
  obtain ⟨-, hvalues⟩ := (denotes_parameters_iff r σ s _ v).mp h.target
  have htext := textOfChoices_units σ htoInt s.allowedRoot s.baseUnits v.exponents hvalues
  simpa only [Formatter.program, display, List.map_map, Function.comp_def] using htext

/-- What stands between the quotes of a literal. -/
def Token.literal? : Token → Option (List Char)
  | literal raw => some raw
  | _ => none

/-- What stands between the quotes of the literals, in order. -/
def literals (tokens : List Token) : List (List Char) :=
  tokens.filterMap Token.literal?

/-- Literals are found part by part. -/
theorem literals_append (first second : List Token) :
    literals (first ++ second) = literals first ++ literals second :=
  List.filterMap_append

/-- A word is no literal. -/
theorem literals_word (text : String) (ts : List Token) :
    literals (.word text :: ts) = literals ts :=
  rfl

/-- A mark is no literal. -/
theorem literals_mark (c : Char) (ts : List Token) : literals (.mark c :: ts) = literals ts :=
  rfl

/-- A literal comes first. -/
theorem literals_literalToken (text : String) (ts : List Token) :
    literals (literalToken text :: ts) = text.toList.flatMap Text.escapeChar :: literals ts :=
  rfl

/-- Joined items without literals have none. -/
theorem literals_joined {α : Type} (between : Char) (found : α → List Token) (items : List α)
    (hitems : ∀ a ∈ items, literals (found a) = []) :
    literals (joined (.mark between) (items.map found)) = [] := by
  induction items with
  | nil => rfl
  | cons item items ih =>
    have hitem := hitems item List.mem_cons_self
    have hrest := ih fun a ha => hitems a (List.mem_cons_of_mem item ha)
    cases items with
    | nil => exact hitem
    | cons next items =>
      simp only [List.map_cons] at hrest
      simp only [List.map_cons, joined, literals_append, literals_mark, hitem,
        hrest, List.append_nil]

/-- Arguments have no literals. -/
theorem literals_argument (argument : Argument) : literals argument.tokens = [] := by
  cases argument <;> rfl

/-- Dimension types have no literals. -/
theorem literals_type (t : DimensionType) : literals t.tokens = [] := by
  have harguments := literals_joined ',' Argument.tokens t.arguments
    (fun argument _ => literals_argument argument)
  rw [DimensionType.tokens, literals_append, literals_word, literals_mark, harguments]
  rfl

/-- Conditions have no literals. -/
theorem literals_bound (b : Bound) : literals b.tokens = [] := by
  have htraits := literals_joined '+' Trait.tokens b.traits fun t _ => by
    unfold Trait.tokens
    split <;> rfl
  rw [Bound.tokens, literals_append, literals_argument, literals_mark, htraits]
  rfl

/-- The literals of a display are those of its choices. -/
theorem literals_program (p : Program) :
    literals p.tokens = p.choices.flatMap fun c => literals c.tokens := by
  have hheading := literals_joined ',' (fun name => [Token.word name]) p.parameters
    (fun _ _ => rfl)
  have hbounds : literals (p.bounds.flatMap fun b => b.tokens ++ [.mark ',']) = [] := by
    rw [literals, List.filterMap_flatMap, List.flatMap_eq_nil_iff]
    intro b _
    show literals (b.tokens ++ [.mark ',']) = []
    rw [literals_append, literals_bound]
    rfl
  have hchoices : literals (p.choices.flatMap Choice.tokens) =
      p.choices.flatMap fun c => literals c.tokens := List.filterMap_flatMap
  have hfunction : literals functionTokens = [] := rfl
  have hempty : literals emptyTokens = [] := rfl
  have hend : literals [.word "text", .mark '\x7d', .mark '\x7d'] = [] := rfl
  simp only [Program.tokens, List.cons_append, literals_append, literals_word, literals_mark,
    hheading, literals_type, hbounds, hfunction, hempty, hchoices, hend, List.nil_append,
    List.append_nil]

/-- The literals for a base unit: its symbol, the template and the symbol again. -/
theorem decode_literals_choice (a : Arm) : (literals a.choice.tokens).map decode =
    [some a.symbol, some template, some a.symbol] := by
  have hinteger (ts : List Token) : literals (integerTokens ++ ts) = literals ts := rfl
  have hpush (ts : List Token) : literals (pushTokens ++ ts) = literals ts := rfl
  have hformat (ts : List Token) : literals (formatTokens ++ ts) = literals ts := rfl
  have hnil : literals [] = [] := rfl
  simp only [Arm.choice, Choice.tokens, Branch.tokens, Pattern.tokens, Action.tokens,
    List.flatMap_cons, List.flatMap_nil, List.append_assoc, List.cons_append, List.nil_append,
    literals_word, literals_mark, hinteger, hpush, hformat, literals_literalToken, hnil,
    List.map_cons, List.map_nil, decode_escaped]

end UnitSystems.Generated

namespace UnitSystems

open Generated

/-- The generated display and the display of dimensions agree. The text of the display is read as a
program whose literals are well-formed and denote, for each base unit, its symbol, the template and
the symbol again. For every dimension of the system the program matches it, its conditions hold
where every integer has their traits, and running its choices gives the text of the dimension. -/
theorem display_agrees (d : Definition) (limits : Limits) (s : Specification)
    (hs : d.validate limits = .ok s) (r : Runtime) :
    (∃ p, readDisplay (render (formatter s)) = some p ∧ ∀ v : Dimension, v.arity = s.arity →
      (∃ σ, p.Matches r σ s.name v) ∧ ∀ σ, p.Matches r σ s.name v →
        ((∀ m, r.has "Peano" m ∧ r.has "ToInt" m) → ∀ b ∈ p.bounds, b.Holds r σ) ∧
        ∃ text, s.format v = .ok text ∧ textOfChoices σ p.choices = some text) ∧
    (literals (tokens (render (formatter s)).toList)).map decode =
      s.baseUnits.flatMap fun unit => [some unit.symbol, some template, some unit.symbol] := by
  have hvalid := d.isValid_of_validate limits s hs
  constructor
  · refine ⟨_, readDisplay_formatter s hvalid, fun v hv => ?_⟩
    refine ⟨exists_matches_display r s hvalid v hv, fun σ hσ => ?_⟩
    refine ⟨holds_display r σ s hvalid v hσ, _, if_pos hv, ?_⟩
    exact textOfChoices_display r σ s hvalid v hσ
  · rw [tokens_display s hvalid, literals_program, List.map_flatMap]
    simp only [Formatter.program, display, List.flatMap_map, decode_literals_choice]

/-- A system of halves with symbols that literals have to escape. -/
def quotedDefinition : Definition where
  name := "Quoted"
  units := ["Inch", "Angle"]
  symbols := ["\"\\\x7b\x7d", "a\u0301\u200b"]
  constants := ["inch", "angle"]
  allowedRoot := 2

/-- The display of three halves of one unit and one of another shows the symbols as they are. -/
theorem display_agrees_quoted :
    ∃ s, quotedDefinition.validate {} = .ok s ∧
      (∃ p σ, readDisplay (render (formatter s)) = some p ∧
        p.Matches ⟨fun _ _ => True, fun _ _ _ => none⟩ σ "Quoted" ⟨[-3, 2]⟩ ∧
        textOfChoices σ p.choices = some "\"\\\x7b\x7d^-1.5a\u0301\u200b") ∧
      (literals (tokens (render (formatter s)).toList)).map decode =
        [some "\"\\\x7b\x7d", some "\x7b\x7d^\x7b\x7d", some "\"\\\x7b\x7d",
          some "a\u0301\u200b", some "\x7b\x7d^\x7b\x7d", some "a\u0301\u200b"] := by
  have hs : quotedDefinition.validate {} = .ok (quotedDefinition.toSpecification 2) :=
    eq_ok_of_toOption _ _ (by decide +kernel)
  obtain ⟨⟨p, hread, hagrees⟩, hliterals⟩ := display_agrees quotedDefinition {} _ hs
    ⟨fun _ _ => True, fun _ _ _ => none⟩
  obtain ⟨⟨σ, hσ⟩, hall⟩ := hagrees ⟨[-3, 2]⟩ rfl
  obtain ⟨-, text, hformat, htext⟩ := hall σ hσ
  have hshown : (quotedDefinition.toSpecification 2).format ⟨[-3, 2]⟩ =
      .ok "\"\\\x7b\x7d^-1.5a\u0301\u200b" := eq_ok_of_toOption _ _ (by decide +kernel)
  obtain rfl : _ = text := Except.ok.inj (hshown.symm.trans hformat)
  exact ⟨_, hs, ⟨p, σ, hread, hσ, htext⟩, hliterals⟩

end UnitSystems
