import UnitSystems.Expression
import UnitSystems.Proofs.DefinitionFile.Lines
import UnitSystems.Proofs.Grammar.Rounds

/-!
# The written form of expressions

Every factor is written as a power whose exponent is a fraction in parentheses, and the factors
stand between the signs of products and quotients. Read back, the text gives the same factors. The
parentheses tell the bar of a fraction from the sign of a quotient, and behind a base the next
character ends the literal one as it ends a name.
-/

namespace UnitSystems

open Grammar

/-- How a base is written. -/
def Base.written : Base → List Char
  | one => ['1']
  | unit name => name.toList

/-- The piece that a base is read as. -/
def Base.piece : Base → Piece Part
  | one => .leaf .one ['1']
  | unit name => .leaf .identifier name.toList

/-- Bases with a written form: the names of units are names of the format. -/
def Base.IsWritable : Base → Prop
  | one => True
  | unit name => IsName name

/-- A factor without its place. -/
structure Power where
  base : Base
  numerator : Int32
  denominator : Int32
  deriving DecidableEq, Repr

/-- What a factor is, wherever it stands. -/
def Factor.power (factor : Factor) : Power :=
  ⟨factor.base, factor.numerator, factor.denominator⟩

/-- The character of a sign. -/
def Sign.mark : Sign → Char
  | .times => '*'
  | .over => '/'

namespace Power

/-- Powers with a written form. -/
structure IsWritable (p : Power) : Prop where
  base : p.base.IsWritable
  denominator : 0 < p.denominator.toInt

/-- A power with its exponent in parentheses. -/
def written (p : Power) : List Char :=
  p.base.written ++ '^' :: '(' :: (p.numerator.toInt.repr.toList ++ '/' ::
    (p.denominator.toInt.repr.toList ++ [')']))

/-- The pieces of the exponent of a power. -/
def exponentParts (p : Power) : List (Piece Part) :=
  [.plain ['('], .plain [], .leaf .integer p.numerator.toInt.repr.toList, .plain [],
    .plain ['/'], .plain [], .leaf .positive p.denominator.toInt.repr.toList, .plain [],
    .plain [')']]

/-- The pieces of a power. -/
def parts (p : Power) : List (Piece Part) :=
  [p.base.piece, .plain [], .plain ['^'], .plain [], .branch .exponent p.exponentParts]

end Power

/-- The written form of a positive integer is read as a denominator to its end. -/
theorem read_positive (n : Int) (h : 0 < n) :
    Form.positive.read n.repr.toList = some ([.leaf .positive n.repr.toList], []) := by
  obtain ⟨first, digits, hdigits, hfirst⟩ := exists_toDigits_eq_cons n.natAbs (by omega)
  have hrest : ∀ c ∈ digits, isDigit c = true := fun c hc =>
    isDigit_of_mem_toDigits n.natAbs c (hdigits ▸ List.mem_cons_of_mem first hc)
  rw [toList_repr, if_neg (by omega), hdigits, List.nil_append]
  exact Pattern.read_leaf _ _ _ _ _ _ (List.append_nil _) (Pattern.read_joined _ _ _ digits _
    [.plain [first]] _ (by simp [Pattern.read, hfirst]) (read_run isDigit digits hrest))

/-- What a pattern reads to its end is read just so before a character that it refuses. -/
theorem read_before {p : Pattern Part} {text : List Char} {pieces : List (Piece Part)}
    (h : p.read text = some (pieces, [])) (c : Char) (hc : p.refuses c = true)
    (more : List Char) : p.read (text ++ c :: more) = some (pieces, c :: more) := by
  rw [p.read_append_refused c hc, h]
  rfl

/-- No gap stands before the written form of an integer. -/
theorem isSolid_repr (n : Int) (more : List Char) : IsSolid (n.repr.toList ++ more) := by
  have hread := read_integer n
  have hsolid := Form.integer.isSolid_of_read (by decide) (by decide) _ _ hread
  intro c hc
  cases htext : n.repr.toList with
  | nil =>
    rw [htext] at hread
    contradiction
  | cons first digits =>
    rw [htext, List.cons_append] at hc
    exact hsolid c (htext ▸ hc)

namespace Power

variable (p : Power) (hp : p.IsWritable)

include hp

/-- No gap stands before a power. -/
theorem isSolid_written (more : List Char) : IsSolid (p.written ++ more) := by
  have hbase := hp.base
  rw [written, List.append_assoc]
  cases hone : p.base with
  | one => exact isSolid_cons '1' _ (by decide) (by decide)
  | unit name =>
    rw [hone] at hbase
    exact IsName.isSolid name hbase _

/-- The base of a power is read up to the sign of its exponent. -/
theorem read_base (more : List Char) :
    (Pattern.either Form.identifier Form.one).read (p.base.written ++ '^' :: more) =
      some ([p.base.piece], '^' :: more) := by
  have hbase := hp.base
  cases hone : p.base with
  | one => exact read_before (p := .either Form.identifier Form.one) rfl '^' (by decide) more
  | unit name =>
    rw [hone] at hbase
    exact Pattern.read_either_left _ _ _ _ (read_name name hbase '^' (by decide) more)

/-- The exponent of a power is read in its parentheses. -/
theorem read_exponent (more : List Char) :
    Form.exponent.read ('(' :: (p.numerator.toInt.repr.toList ++ '/' ::
        (p.denominator.toInt.repr.toList ++ ')' :: more))) =
      some ([.branch .exponent p.exponentParts], more) := by
  have hnumerator := read_before (read_integer p.numerator.toInt) '/' (by decide)
    (p.denominator.toInt.repr.toList ++ ')' :: more)
  have hdenominator := read_before (read_positive p.denominator.toInt hp.denominator) ')'
    (by decide) more
  have hfraction : (Pattern.optional (.spaced (Form.text "/") Form.positive)).read
      ('/' :: (p.denominator.toInt.repr.toList ++ ')' :: more)) = some ([.plain ['/'], .plain [],
        .leaf .positive p.denominator.toInt.repr.toList], ')' :: more) := by
    rw [Pattern.read, Pattern.read_spaced _ _ _ _ _ _ [] [.plain ['/']] _ rfl
      (gap_of_isSolid _ (isSolid_repr _ _)) hdenominator]
    rfl
  refine Pattern.read_branch _ _ _ _ _ (Pattern.read_either_left _ _ _ _ ?_)
  exact Pattern.read_spaced _ _ _ _ _ _ [] [.plain ['(']] _ rfl
    (gap_of_isSolid _ (isSolid_repr _ _)) (Pattern.read_spaced _ _ _ _ _ _ [] _ _ hnumerator
      (gap_of_isSolid _ (isSolid_cons _ _ (by decide) (by decide)))
      (Pattern.read_spaced _ _ _ _ _ _ [] _ [.plain [')']] hfraction
        (gap_of_isSolid _ (isSolid_cons _ _ (by decide) (by decide))) rfl))

/-- A power is read as a factor, whatever follows it. -/
theorem read_written (more : List Char) :
    Form.factor.read (p.written ++ more) = some ([.branch .factor p.parts], more) := by
  have hexponent : (Pattern.optional (.spaced (Form.text "^") Form.exponent)).read
      ('^' :: '(' :: (p.numerator.toInt.repr.toList ++ '/' ::
        (p.denominator.toInt.repr.toList ++ ')' :: more))) =
      some ([.plain ['^'], .plain [], .branch .exponent p.exponentParts], more) := by
    rw [Pattern.read, Pattern.read_spaced _ _ _ _ _ _ [] [.plain ['^']] _ rfl
      (gap_of_isSolid _ (isSolid_cons _ _ (by decide) (by decide))) (p.read_exponent hp more)]
    rfl
  have htext : p.written ++ more = p.base.written ++ '^' :: '(' ::
      (p.numerator.toInt.repr.toList ++ '/' ::
        (p.denominator.toInt.repr.toList ++ ')' :: more)) := by
    simp only [written, List.append_assoc, List.cons_append, List.nil_append]
  rw [htext]
  exact Pattern.read_branch _ _ _ _ _ (Pattern.read_spaced _ _ _ _ _ _ [] _ _ (p.read_base hp _)
    (gap_of_isSolid _ (isSolid_cons _ _ (by decide) (by decide))) hexponent)

omit hp in
/-- The pieces of a power denote it. -/
theorem exists_readFactor (start : Place) :
    ∃ factor, Expression.readFactor start p.parts = .ok factor ∧ factor.power = p := by
  have hnumber (place : Place) (n : Int32) :
      Expression.numberAt place n.toInt.repr.toList = .ok n := by
    rw [Expression.numberAt, integerValue_repr, exponent?_eq_some_iff.mpr rfl]
  have hratio (place : Place) : Expression.readRatio (1, 1) (located place p.exponentParts) =
      .ok (p.numerator, p.denominator) := by
    simp only [exponentParts, located, Expression.readRatio, hnumber]
  obtain ⟨base, numerator, denominator⟩ := p
  cases base <;>
    simp [Expression.readFactor, Power.parts, located, Base.piece, Expression.readPower, hratio,
      Except.map, Factor.power]

end Power

namespace Expression

/-- Further powers, each behind its sign. -/
def writtenRest (rest : List (Sign × Power)) : List Char :=
  rest.flatMap fun term => ' ' :: term.1.mark :: ' ' :: term.2.written

/-- A product of powers, which begins with a first one. -/
def written (first : Power) (rest : List (Sign × Power)) : String :=
  String.ofList (first.written ++ writtenRest rest)

/-- The pieces of a sign and a power, with the blanks before them. -/
def termParts (term : Sign × Power) : List (Piece Part) :=
  [.plain [' '], .branch .operator [.plain [term.1.mark]], .plain [' '],
    .branch .factor term.2.parts]

/-- A sign and the factor behind it. -/
def signAndFactor : Pattern Part :=
  .spaced Form.operator Form.factor

/-- A sign and a power are read with the blanks before them. -/
theorem read_term (term : Sign × Power) (hterm : term.2.IsWritable) (more : List Char) :
    afterGap signAndFactor.read (' ' :: term.1.mark :: ' ' :: (term.2.written ++ more)) =
      some (termParts term, more) := by
  obtain ⟨sign, p⟩ := term
  have hmark : IsSolid (sign.mark :: ' ' :: (p.written ++ more)) := by
    cases sign <;> exact isSolid_cons _ _ (by decide) (by decide)
  have hsign : Form.operator.read (sign.mark :: ' ' :: (p.written ++ more)) =
      some ([.branch .operator [.plain [sign.mark]]], ' ' :: (p.written ++ more)) := by
    cases sign <;> rfl
  have hread := Pattern.read_spaced Form.operator Form.factor _ _ _ _ [' '] _ _ hsign
    (gap_blank _ (p.isSolid_written hterm more)) (p.read_written hterm more)
  rw [afterGap, gap_blank _ hmark, signAndFactor, hread]
  rfl

/-- Further powers are read one after the other. -/
theorem repeats_writtenRest (rest : List (Sign × Power)) (hrest : ∀ term ∈ rest, term.2.IsWritable) :
    Repeats (afterGap signAndFactor.read) (writtenRest rest) (rest.flatMap termParts) [] := by
  induction rest with
  | nil => exact .stop rfl
  | cons term rest ih =>
    obtain ⟨hterm, hrest⟩ := List.forall_mem_cons.mp hrest
    exact .round (read_term term hterm _) (ih hrest)

/-- The pieces at the end of an expression. -/
def endParts : List (Piece Part) :=
  [.plain [], .leaf .endOfText []]

/-- The pieces of further powers denote them, with their signs. -/
theorem exists_readFactors (sign : Sign) (start : Place) (rest : List (Sign × Power)) :
    ∃ expression, readFactors sign (located start (rest.flatMap termParts ++ endParts)) =
        .ok expression ∧ expression.map (fun term => (term.1, term.2.power)) = rest := by
  induction rest generalizing sign start with
  | nil => exact ⟨[], rfl, rfl⟩
  | cons term rest ih =>
    obtain ⟨next, p⟩ := term
    have hsign : readSign [.plain [next.mark]] = next := by
      cases next <;> rfl
    let place := ((start.after [' ']).after [next.mark]).after [' ']
    obtain ⟨factor, hfactor, hpower⟩ := p.exists_readFactor place
    obtain ⟨expression, hexpression, hterms⟩ := ih next (place.after (Piece.textOf p.parts))
    refine ⟨(next, factor) :: expression, ?_, by simp [hpower, hterms]⟩
    simp only [List.flatMap_cons, termParts, List.cons_append, List.nil_append, located,
      readFactors, hsign, Piece.text, Piece.textOf, List.append_nil]
    rw [hfactor]
    show (readFactors next _).map _ = _
    rw [hexpression]
    rfl

/-- The pieces between the first power and the end. Where no power follows, a repetition still takes
the empty gap. -/
def restParts (rest : List (Sign × Power)) : List (Piece Part) :=
  if rest = [] then [.plain []] else rest.flatMap termParts

/-- Further powers are read by a repetition behind a gap. -/
theorem read_writtenRest (rest : List (Sign × Power)) (hrest : ∀ term ∈ rest, term.2.IsWritable) :
    afterGap (Pattern.spacedMany signAndFactor).read (writtenRest rest) =
      some (restParts rest, []) := by
  cases rest with
  | nil => rfl
  | cons term rest =>
    obtain hread | ⟨hnil, -, -⟩ :=
      (repeats_writtenRest _ hrest).afterGap_spacedMany (p := signAndFactor) (by decide)
    · exact hread
    · contradiction

/-- A product of powers is read as one expression, whose pieces hold the first power and then the
others. -/
theorem read_written (first : Power) (rest : List (Sign × Power)) (hfirst : first.IsWritable)
    (hrest : ∀ term ∈ rest, term.2.IsWritable) :
    Form.expression.read (written first rest).toList = some ([.branch .expression
      (.plain [] :: .plain [] :: .branch .factor first.parts :: (restParts rest ++ endParts))],
        []) := by
  have hending : afterGap Form.endOfText.read [] = some (endParts, []) := rfl
  have hbody := (Pattern.afterGap_spaced_iff _ _).mpr
    ⟨_, _, _, read_writtenRest rest hrest, hending, rfl⟩
  rw [written, String.toList_ofList]
  refine Pattern.read_branch _ _ _ _ _ (Pattern.read_spaced _ _ _ _ _ _ [] [.plain []] _ rfl
    (gap_of_isSolid _ (first.isSolid_written hfirst (writtenRest rest))) ?_)
  rw [Pattern.read_spaced_eq, first.read_written hfirst, Option.bind_some]
  exact congrArg (Option.map _) hbody

/-- Reading the written form of any product of powers gives exactly these powers with their signs,
the first one with the sign of a product. -/
theorem parse_powers (first : Power) (rest : List (Sign × Power)) (hfirst : first.IsWritable)
    (hrest : ∀ term ∈ rest, term.2.IsWritable) : ∃ expression,
    parse (written first rest) = .ok expression ∧
      expression.map (fun term => (term.1, term.2.power)) = (.times, first) :: rest := by
  obtain ⟨factor, hfactor, hpower⟩ := first.exists_readFactor {}
  have hothers (start : Place) : ∃ expression,
      readFactors .times (located start (restParts rest ++ endParts)) = .ok expression ∧
        expression.map (fun term => (term.1, term.2.power)) = rest := by
    rw [restParts]
    split
    · next hnil => exact ⟨[], rfl, hnil.symm⟩
    · exact exists_readFactors .times start rest
  obtain ⟨expression, hexpression, hterms⟩ :=
    hothers (Place.after {} (Piece.textOf first.parts))
  refine ⟨(.times, factor) :: expression, ?_, by rw [List.map_cons, hterms, hpower]⟩
  have hparts : readFactors .times (located {} (.plain [] :: .plain [] ::
      .branch .factor first.parts :: (restParts rest ++ endParts))) =
        .ok ((.times, factor) :: expression) := by
    simp only [located, readFactors, Piece.text, Place.after_nil, hfactor, hexpression]
    rfl
  simp only [parse, readBranch, read_written first rest hfirst hrest, bind, Except.bind, hparts,
    Except.mapError]

/-- A product with the literal one, a lone underscore and the smallest numerator is read back. -/
theorem parse_powers_extremes :
    let first : Power := ⟨.one, Int32.minValue, Int32.maxValue⟩
    let rest : List (Sign × Power) :=
      [(.over, ⟨.unit "_", 0, 1⟩), (.times, ⟨.unit "units_1", -1, 10⟩)]
    first.IsWritable ∧ (∀ term ∈ rest, term.2.IsWritable) ∧
      written first rest = "1^(-2147483648/2147483647) / _^(0/1) * units_1^(-1/10)" ∧
      ∃ expression,
        parse "1^(-2147483648/2147483647) / _^(0/1) * units_1^(-1/10)" = .ok expression ∧
          expression.map (fun term => (term.1, term.2.power)) = (.times, first) :: rest := by
  intro first rest
  have hfirst : first.IsWritable := ⟨trivial, by decide⟩
  have hrest : ∀ term ∈ rest, term.2.IsWritable := by
    simp only [rest, List.forall_mem_cons, List.not_mem_nil, false_imp_iff, implies_true, and_true]
    exact ⟨⟨(by decide : IsName "_"), by decide⟩, (by decide : IsName "units_1"), by decide⟩
  have hwritten : written first rest =
      "1^(-2147483648/2147483647) / _^(0/1) * units_1^(-1/10)" := by decide +kernel
  exact ⟨hfirst, hrest, hwritten, hwritten ▸ parse_powers first rest hfirst hrest⟩

end Expression

end UnitSystems
