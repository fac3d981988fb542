import UnitSystems.Proofs.Span.Expressions

/-!
# How expressions are spelled

An expression is spelled as terms, one behind the other. A term is a sign and a power, the exponent
of the power bare or in parentheses, with blanks between its members. Read back, the terms give
their powers, if no bare exponent without a denominator stands before a quotient by one: the bar of
the quotient would be read as the bar of a fraction.
-/

namespace UnitSystems.Spelled

open Grammar

/-- Blanks between the members of an expression. -/
abbrev Blanks := { text : List Char // ∀ c ∈ text, isBlank c = true }

/-- A number as it is spelled, with the 32-bit number that it denotes. -/
structure Numeral (name : Part) (p : Pattern Part) where
  digits : List Char
  value : Int32
  reads : p.read digits = some ([.leaf name digits], [])
  denotes : exponent? (Text.integerValue digits) = some value

/-- The bar of a fraction with its denominator. -/
structure Bar where
  before : Blanks
  after : Blanks
  denominator : Numeral .positive Form.positive

/-- An exponent with its sign. In parentheses there are blanks at both ends. -/
structure Exponent where
  before : Blanks
  after : Blanks
  parentheses : Option (Blanks × Blanks)
  numerator : Numeral .integer Form.integer
  bar : Option Bar

/-- A sign and a power, with the blanks behind it. -/
structure Term where
  sign : Sign
  lead : Blanks
  base : Base
  writable : base.IsWritable
  exponent : Option Exponent
  trail : Blanks

/-- How a bar is spelled, if there is one. -/
def barText : Option Bar → List Char
  | none => []
  | some bar => bar.before.1 ++ '/' :: (bar.after.1 ++ bar.denominator.digits)

namespace Exponent

/-- The denominator, which is one without a bar. -/
def denominator (e : Exponent) : Int32 :=
  e.bar.elim 1 (·.denominator.value)

/-- How an exponent is spelled behind its sign and the blanks there. -/
def inner (e : Exponent) : List Char :=
  match e.parentheses with
  | none => e.numerator.digits ++ barText e.bar
  | some (opening, closing) =>
    '(' :: (opening.1 ++ (e.numerator.digits ++ (barText e.bar ++ (closing.1 ++ [')']))))

/-- How an exponent is spelled. -/
def text (e : Exponent) : List Char :=
  e.before.1 ++ '^' :: (e.after.1 ++ e.inner)

/-- Exponents that would take the bar of a quotient for their own. -/
def TakesBar (e : Exponent) : Prop :=
  e.parentheses = none ∧ e.bar = none

end Exponent

/-- How an exponent is spelled, if there is one. -/
def exponentText : Option Exponent → List Char
  | none => []
  | some e => e.text

namespace Term

/-- How a power is spelled, with the blanks behind it. -/
def body (t : Term) : List Char :=
  t.base.written ++ (exponentText t.exponent ++ t.trail.1)

/-- How a term is spelled. -/
def text (t : Term) : List Char :=
  t.sign.mark :: (t.lead.1 ++ t.body)

/-- The power that a term denotes. Without an exponent it is the first one. -/
def power (t : Term) : Power where
  base := t.base
  numerator := t.exponent.elim 1 (·.numerator.value)
  denominator := t.exponent.elim 1 Exponent.denominator

/-- Terms of which the second can stand behind the first: it is no quotient by one behind a bare
exponent without a denominator. -/
def Apart (t u : Term) : Prop :=
  ∀ e ∈ t.exponent, e.TakesBar → ¬(u.sign = .over ∧ u.base = .one)

end Term

/-- Characters that end a name or a number. -/
def separators : List Char :=
  [' ', '\t', '^', '(', ')', '*', '/', '#']

/-- Texts that no name and no number goes on with. -/
def Ends (text : List Char) : Prop :=
  ∀ c ∈ text.head?, c ∈ separators

/-- A text that begins with a separator goes on with no name and no number. -/
theorem ends_cons {c : Char} (hc : c ∈ separators) (text : List Char) : Ends (c :: text) := by
  rintro _ ⟨⟩
  exact hc

/-- Blanks end names and numbers. -/
theorem ends_blanks (blanks : Blanks) {text : List Char} (h : Ends text) :
    Ends (blanks.1 ++ text) := by
  obtain ⟨blanks, hblanks⟩ := blanks
  cases blanks with
  | nil => exact h
  | cons c blanks =>
    have hc := hblanks c List.mem_cons_self
    simp only [isBlank, Bool.or_eq_true, beq_iff_eq] at hc
    rcases hc with rfl | rfl <;> exact ends_cons (by decide) _

section

variable {p : Pattern Part} (hp : separators.all p.refuses = true) {word text more : List Char}
  {pieces : List (Piece Part)}

include hp

/-- What is read to its end is read just so before a separator. -/
theorem read_ended (h : p.read word = some (pieces, [])) (hmore : Ends more) :
    p.read (word ++ more) = some (pieces, more) := by
  cases more with
  | nil => rwa [List.append_nil]
  | cons c more => exact read_before h c (List.all_eq_true.mp hp c (hmore c rfl)) more

/-- No separator stands in what is read to its end. -/
theorem notMem_of_read (h : p.read word = some (pieces, [])) (c : Char) (hc : c ∈ separators) :
    c ∉ word := by
  intro hmem
  obtain ⟨before, after, rfl⟩ := List.append_of_mem hmem
  rw [p.read_append_refused c (List.all_eq_true.mp hp c hc)] at h
  obtain ⟨reading, -, heq⟩ := Option.map_eq_some_iff.mp h
  exact absurd (Prod.mk.inj heq).2 (by simp)

/-- No gap stands before what a pattern reads that takes a character but no separator. -/
theorem isSolid_of_read (hadvances : p.advances = true) {reading : Reading Part}
    (h : p.read text = some reading) : IsSolid text := by
  refine p.isSolid_of_read hadvances ?_ text reading h
  simp only [separators, List.all_cons, List.all_nil, Bool.and_true, Bool.and_eq_true] at hp ⊢
  exact ⟨hp.1, hp.2.1, hp.2.2.2.2.2.2.2⟩

end

/-- Exactly the blanks are passed over before a solid text. -/
theorem gap_blanks (blanks : Blanks) {text : List Char} (h : IsSolid text) :
    gap (blanks.1 ++ text) = (blanks.1, text) :=
  gap_append_of_isSolid _ _ blanks.2 h

/-- Behind blanks a text is reached as it is reached without them. -/
theorem gap_blanks_append (blanks : Blanks) (text : List Char) :
    (gap (blanks.1 ++ text)).2 = (gap text).2 := by
  unfold gap
  simp only [List.span_eq_takeWhile_dropWhile, List.dropWhile_append_of_pos blanks.2]
  split <;> rfl

/-- Behind a gap there is no other one. -/
theorem gap_gap (text : List Char) : (gap (gap text).2).2 = (gap text).2 := by
  rw [gap_of_isSolid _ (isSolid_gap text)]

/-- A bar and a denominator. -/
def fraction : Pattern Part :=
  .spaced (Form.text "/") Form.positive

/-- The pieces of a bar, behind the blanks before it. -/
def barParts : Option Bar → List (Piece Part)
  | none => []
  | some bar => [.plain ['/'], .plain bar.after.1, .leaf .positive bar.denominator.digits]

/-- A bar is read, or nothing is where none can be read. -/
theorem read_bar (bar : Option Bar) {more : List Char} (hmore : Ends more)
    (hnone : bar = none → fraction.read (gap more).2 = none) :
    ∃ blanks rest, afterGap (Pattern.optional fraction).read (barText bar ++ more) =
        some (.plain blanks :: barParts bar, rest) ∧
      rest = if bar = none then (gap more).2 else more := by
  cases bar with
  | none =>
    refine ⟨(gap more).1, (gap more).2, ?_, rfl⟩
    rw [barText, List.nil_append, afterGap, Pattern.read, hnone rfl]
    rfl
  | some bar =>
    refine ⟨bar.before.1, more, ?_, rfl⟩
    have hread := read_ended (by decide) bar.denominator.reads hmore
    have hsolid := isSolid_of_read (p := Form.positive) (by decide) (by decide) hread
    have hfraction : fraction.read ('/' :: (bar.after.1 ++ bar.denominator.digits ++ more)) =
        some (barParts (some bar), more) := by
      rw [List.append_assoc]
      exact Pattern.read_spaced _ _ _ _ _ _ _ [.plain ['/']] _ rfl
        (gap_blanks bar.after hsolid) hread
    rw [barText, List.append_assoc, List.cons_append, afterGap,
      gap_blanks bar.before (isSolid_cons '/' _ (by decide) (by decide)), Pattern.read, hfraction]
    rfl

/-- The number that a numeral denotes is found in its digits, wherever they stand. -/
theorem Numeral.numberAt {name : Part} {p : Pattern Part} (n : Numeral name p) (start : Place) :
    Expression.numberAt start n.digits = .ok n.value := by
  rw [Expression.numberAt, n.denotes]

/-- Plain pieces set no number of an exponent. -/
theorem readRatio_plain {ratio : Int32 × Int32} {start : Place} {ending : List (Piece Part)}
    (hending : Piece.ArePlain ending) :
    Expression.readRatio ratio (located start ending) = .ok ratio := by
  induction ending generalizing start with
  | nil => rfl
  | cons piece ending ih =>
    obtain ⟨⟨text, rfl⟩, hmore⟩ := List.forall_mem_cons.mp hending
    exact ih hmore

/-- The pieces of a bar set the denominator. -/
theorem readRatio_barParts (numerator : Int32) (bar : Option Bar) (start : Place)
    (ending : List (Piece Part)) (hending : Piece.ArePlain ending) :
    Expression.readRatio (numerator, 1) (located start (barParts bar ++ ending)) =
      .ok (numerator, bar.elim 1 (·.denominator.value)) := by
  cases bar with
  | none => exact readRatio_plain hending
  | some bar =>
    simp only [barParts, List.cons_append, List.nil_append, located, Expression.readRatio,
      bar.denominator.numberAt, readRatio_plain hending, Option.elim_some]

/-- A bar ends the number before it. -/
theorem ends_barText (bar : Option Bar) {more : List Char} (hmore : Ends more) :
    Ends (barText bar ++ more) := by
  cases bar with
  | none => exact hmore
  | some bar =>
    rw [barText, List.append_assoc, List.cons_append]
    exact ends_blanks _ (ends_cons (by decide) _)

/-- What the pieces of an exponent denote. -/
def Exponent.IsDenotedBy (e : Exponent) (parts : List (Piece Part)) : Prop :=
  ∀ start, Expression.readRatio (1, 1) (located start parts) =
    .ok (e.numerator.value, e.denominator)

/-- A bare exponent is read. Behind one that takes bars no bar can stand. -/
theorem read_bare (e : Exponent) (hbare : e.parentheses = none) {more : List Char}
    (hmore : Ends more) (hbar : e.bar = none → fraction.read (gap more).2 = none) :
    ∃ parts, Form.exponent.read (e.inner ++ more) = some ([.branch .exponent parts],
      if e.bar = none then (gap more).2 else more) ∧ e.IsDenotedBy parts := by
  have hinteger := read_ended (by decide) e.numerator.reads (ends_barText e.bar hmore)
  obtain ⟨blanks, rest, hread, rfl⟩ := read_bar e.bar hmore hbar
  have hratio : Form.ratio.read (e.inner ++ more) =
      some ([.leaf .integer e.numerator.digits, .plain blanks] ++ barParts e.bar,
        if e.bar = none then (gap more).2 else more) := by
    rw [Exponent.inner, hbare, List.append_assoc, Form.ratio, Pattern.read_spaced_eq, hinteger,
      Option.bind_some]
    exact congrArg (Option.map _) hread
  have hopen : (Form.text "(").read (e.inner ++ more) = none := by
    have hfree := notMem_of_read (by decide) e.numerator.reads '(' (by decide)
    have hreads := e.numerator.reads
    rw [Exponent.inner, hbare, List.append_assoc]
    cases hdigits : e.numerator.digits with
    | nil =>
      rw [hdigits] at hreads
      contradiction
    | cons c digits =>
      rw [hdigits, List.mem_cons, not_or] at hfree
      simp [Form.text, Pattern.read, List.isPrefixOf?, hfree.1]
  refine ⟨_, Pattern.read_branch _ _ _ _ _ ((Pattern.read_either_right _ _ _
    (Pattern.read_spaced_eq_none _ _ _ hopen)).trans hratio), fun start => ?_⟩
  simp only [List.cons_append, List.nil_append, located, Expression.readRatio,
    e.numerator.numberAt]
  have hbarParts := readRatio_barParts e.numerator.value e.bar
    ((start.after e.numerator.digits).after blanks) [] (List.forall_mem_nil _)
  rwa [List.append_nil] at hbarParts

/-- An exponent in parentheses is read up to the closing one. -/
theorem read_parenthesized (e : Exponent) (opening closing : Blanks)
    (hparentheses : e.parentheses = some (opening, closing)) (more : List Char) :
    ∃ parts, Form.exponent.read (e.inner ++ more) = some ([.branch .exponent parts], more) ∧
      e.IsDenotedBy parts := by
  have hclose : gap (closing.1 ++ ')' :: more) = (closing.1, ')' :: more) :=
    gap_blanks closing (isSolid_cons ')' _ (by decide) (by decide))
  have hends : Ends (closing.1 ++ ')' :: more) := ends_blanks _ (ends_cons (by decide) _)
  have hinteger := read_ended (by decide) e.numerator.reads (ends_barText e.bar hends)
  have hsolid := isSolid_of_read (p := Form.integer) (by decide) (by decide) hinteger
  obtain ⟨blanks, rest, hread, hrest⟩ := read_bar e.bar hends (by rw [hclose]; exact fun _ => rfl)
  have hclosed : ∃ last, afterGap (Form.text ")").read rest =
      some ([.plain last, .plain [')']], more) := by
    refine ⟨(gap rest).1, ?_⟩
    have hafter : (gap rest).2 = ')' :: more := by
      rw [hrest]
      split
      · rw [gap_gap, hclose]
      · rw [hclose]
    rw [afterGap, hafter]
    rfl
  obtain ⟨last, hlast⟩ := hclosed
  have hinside := (Pattern.afterGap_spaced_iff (.optional fraction) (Form.text ")")).mpr
    ⟨_, _, _, hread, hlast, rfl⟩
  have hbody : (Pattern.spaced Form.integer (.spaced (.optional fraction) (Form.text ")"))).read
      (e.numerator.digits ++ (barText e.bar ++ (closing.1 ++ ')' :: more))) =
      some ([.leaf .integer e.numerator.digits] ++
        (.plain blanks :: barParts e.bar ++ [.plain last, .plain [')']]), more) := by
    rw [Pattern.read_spaced_eq, hinteger, Option.bind_some, hinside]
    rfl
  have htext : e.inner ++ more = '(' :: (opening.1 ++
      (e.numerator.digits ++ (barText e.bar ++ (closing.1 ++ ')' :: more)))) := by
    simp [Exponent.inner, hparentheses]
  rw [htext]
  refine ⟨_, Pattern.read_branch _ _ _ _ _ (Pattern.read_either_left _ _ _ _
    (Pattern.read_spaced _ _ _ _ _ _ _ [.plain ['(']] _ rfl (gap_blanks opening hsolid) hbody)),
    fun start => ?_⟩
  simp only [List.cons_append, List.nil_append, located, Expression.readRatio,
    e.numerator.numberAt]
  exact readRatio_barParts e.numerator.value e.bar _ _ (by simp [Piece.ArePlain])

/-- No gap stands before the fraction of an exponent. -/
theorem isSolid_inner (e : Exponent) {more : List Char} (hmore : Ends more) :
    IsSolid (e.inner ++ more) := by
  cases hparentheses : e.parentheses with
  | none =>
    rw [Exponent.inner, hparentheses, List.append_assoc]
    exact isSolid_of_read (p := Form.integer) (by decide) (by decide)
      (read_ended (by decide) e.numerator.reads (ends_barText e.bar hmore))
  | some blanks =>
    rw [Exponent.inner, hparentheses]
    exact isSolid_cons '(' _ (by decide) (by decide)

/-- An exponent is read, and what it leaves reaches the text behind it. -/
theorem read_exponent (e : Exponent) {more : List Char} (hmore : Ends more)
    (hbar : e.TakesBar → fraction.read (gap more).2 = none) :
    ∃ parts rest, Form.exponent.read (e.inner ++ more) = some ([.branch .exponent parts], rest) ∧
      (gap rest).2 = (gap more).2 ∧ e.IsDenotedBy parts := by
  cases hparentheses : e.parentheses with
  | none =>
    obtain ⟨parts, hread, hparts⟩ := read_bare e hparentheses hmore fun hnone =>
      hbar ⟨hparentheses, hnone⟩
    refine ⟨parts, _, hread, ?_, hparts⟩
    split
    · exact gap_gap more
    · rfl
  | some blanks =>
    obtain ⟨parts, hread, hparts⟩ := read_parenthesized e blanks.1 blanks.2 hparentheses more
    exact ⟨parts, more, hread, rfl, hparts⟩

/-- The sign of an exponent and the exponent. -/
def raised : Pattern Part :=
  .spaced (Form.text "^") Form.exponent

/-- No exponent is read where its sign does not stand. -/
theorem read_raised_eq_none {text : List Char} (h : text.head? ≠ some '^') :
    raised.read text = none := by
  refine Pattern.read_spaced_eq_none _ _ _ ?_
  cases text with
  | nil => rfl
  | cons c text =>
    have hc : '^' ≠ c := fun heq => h (congrArg some heq.symm)
    simp [Form.text, Pattern.read, List.isPrefixOf?, hc]

/-- The exponent of a power is read, and its pieces denote it. Behind a base alone no sign of an
exponent can stand. -/
theorem read_exponentText (exponent : Option Exponent) {more : List Char} (hmore : Ends more)
    (hcaret : exponent = none → (gap more).2.head? ≠ some '^')
    (hbar : ∀ e ∈ exponent, e.TakesBar → fraction.read (gap more).2 = none) :
    ∃ tail rest, afterGap (Pattern.optional raised).read (exponentText exponent ++ more) =
        some (tail, rest) ∧ (gap rest).2 = (gap more).2 ∧
      ∀ base start, Expression.readPower base (1, 1) (located start tail) =
        .ok (base, exponent.elim 1 (·.numerator.value), exponent.elim 1 Exponent.denominator) := by
  cases exponent with
  | none =>
    refine ⟨[.plain (gap more).1], (gap more).2, ?_, gap_gap more, fun _ _ => rfl⟩
    rw [exponentText, List.nil_append, afterGap, Pattern.read,
      read_raised_eq_none (hcaret rfl)]
    rfl
  | some e =>
    obtain ⟨parts, rest, hread, hrest, hdenotes⟩ := read_exponent e hmore (hbar e rfl)
    have hraised : raised.read ('^' :: (e.after.1 ++ (e.inner ++ more))) =
        some ([.plain ['^'], .plain e.after.1, .branch .exponent parts], rest) :=
      Pattern.read_spaced _ _ _ _ _ _ _ [.plain ['^']] _ rfl
        (gap_blanks e.after (isSolid_inner e hmore)) hread
    refine ⟨[.plain e.before.1, .plain ['^'], .plain e.after.1, .branch .exponent parts], rest, ?_,
      hrest, fun base start => ?_⟩
    · rw [exponentText, Exponent.text, List.append_assoc, List.cons_append, List.append_assoc,
        afterGap, gap_blanks e.before (isSolid_cons '^' _ (by decide) (by decide)), Pattern.read,
        hraised]
      rfl
    · simp only [located, Expression.readPower, hdenotes _, Option.elim_some]

/-- A base is read to its end. -/
theorem read_written {base : Base} (h : base.IsWritable) :
    (Pattern.either Form.identifier Form.one).read base.written = some ([base.piece], []) := by
  cases base with
  | one => rfl
  | unit name => exact Pattern.read_either_left _ _ _ _ (read_identifier name h)

/-- Terms that take nothing of the text behind them. -/
structure Term.Precedes (t : Term) (more : List Char) : Prop where
  ends : Ends more
  caret : t.exponent = none → (gap more).2.head? ≠ some '^'
  bar : ∀ e ∈ t.exponent, e.TakesBar → fraction.read (gap more).2 = none

/-- A power is read, and its pieces denote it. -/
theorem read_body (t : Term) {more : List Char} (h : t.Precedes more) :
    ∃ parts rest, Form.factor.read (t.body ++ more) = some ([.branch .factor parts], rest) ∧
      (gap rest).2 = (gap more).2 ∧
      ∀ start, ∃ factor,
        Expression.readFactor start parts = .ok factor ∧ factor.power = t.power := by
  have hgap := gap_blanks_append t.trail more
  obtain ⟨tail, rest, htail, hrest, hdenotes⟩ := read_exponentText t.exponent
    (ends_blanks t.trail h.ends) (hgap ▸ h.caret) (hgap ▸ h.bar)
  have hends : Ends (exponentText t.exponent ++ (t.trail.1 ++ more)) := by
    cases t.exponent with
    | none => exact ends_blanks t.trail h.ends
    | some e =>
      rw [exponentText, Exponent.text, List.append_assoc, List.cons_append]
      exact ends_blanks _ (ends_cons (by decide) _)
  refine ⟨t.base.piece :: tail, rest, ?_, hrest.trans hgap, fun start => ?_⟩
  · rw [Term.body, List.append_assoc, List.append_assoc]
    refine Pattern.read_branch _ _ _ _ _ ?_
    rw [Pattern.read_spaced_eq, read_ended (by decide) (read_written t.writable) hends,
      Option.bind_some]
    exact congrArg (Option.map _) htail
  · rw [Expression.readFactor, located, Expression.readPower_piece, hdenotes]
    exact ⟨_, rfl, rfl⟩

/-- No gap stands before a power. -/
theorem isSolid_body (t : Term) (more : List Char) : IsSolid (t.body ++ more) := by
  have hwritable := t.writable
  rw [Term.body, List.append_assoc]
  cases hbase : t.base with
  | one => exact isSolid_cons '1' _ (by decide) (by decide)
  | unit name =>
    rw [hbase] at hwritable
    exact IsName.isSolid name hwritable _

/-- No gap stands before a term. -/
theorem isSolid_text (t : Term) (more : List Char) : IsSolid (t.text ++ more) := by
  rw [Term.text, List.cons_append]
  cases t.sign <;> exact isSolid_cons _ _ (by decide) (by decide)

/-- No denominator begins like a name. -/
theorem isNonzeroDigit_of_isNameStart (c : Char) (h : isNameStart c = true) :
    isNonzeroDigit c = false := by
  by_contra hdigit
  simp only [isNonzeroDigit, Bool.not_eq_false, Bool.and_eq_true, decide_eq_true_eq] at hdigit
  simp only [isNameStart, isLetter, Bool.or_eq_true, Bool.and_eq_true, decide_eq_true_eq,
    beq_iff_eq] at h
  have hhigh : c.toNat ≤ '9'.toNat := hdigit.2
  rcases h with (⟨hlow, -⟩ | ⟨hlow, -⟩) | rfl
  · have hlow : 'a'.toNat ≤ c.toNat := hlow
    exact absurd (Nat.le_trans hlow hhigh) (by decide)
  · have hlow : 'A'.toNat ≤ c.toNat := hlow
    exact absurd (Nat.le_trans hlow hhigh) (by decide)
  · exact absurd hhigh (by decide)

/-- The bar of a fraction is read from quotients by one, and from no other term. -/
theorem read_fraction_eq_none_iff (u : Term) (more : List Char) :
    fraction.read (u.text ++ more) = none ↔ ¬(u.sign = .over ∧ u.base = .one) := by
  have hwritable := u.writable
  match hsign : u.sign with
  | .times =>
    rw [Term.text, hsign]
    exact iff_of_true rfl (by simp)
  | .over =>
    have hslash : (Form.text "/").read ('/' :: (u.lead.1 ++ (u.body ++ more))) =
        some ([.plain ['/']], u.lead.1 ++ (u.body ++ more)) := rfl
    have hread : fraction.read (u.text ++ more) = none ↔
        Form.positive.read (u.body ++ more) = none := by
      rw [Term.text, hsign, List.cons_append, List.append_assoc, fraction, Pattern.read_spaced_eq,
        Sign.mark, hslash, Option.bind_some, afterGap, gap_blanks u.lead (isSolid_body u more)]
      simp only [Option.map_eq_none_iff]
    rw [hread, Term.body, List.append_assoc]
    cases hbase : u.base with
    | one =>
      refine iff_of_false (fun hnone => ?_) (by simp)
      have hdigit : ∃ reading, Form.positive.read
          ('1' :: (exponentText u.exponent ++ u.trail.1 ++ more)) = some reading := ⟨_, rfl⟩
      obtain ⟨reading, hreading⟩ := hdigit
      exact Option.some_ne_none _ (hreading.symm.trans hnone)
    | unit name =>
      rw [hbase] at hwritable
      obtain ⟨c, rest, hname, hc⟩ := IsName.exists_cons name hwritable
      refine iff_of_true ?_ (by simp)
      simp [Base.written, hname, Form.positive, Pattern.read, isNonzeroDigit_of_isNameStart c hc]

end UnitSystems.Spelled
