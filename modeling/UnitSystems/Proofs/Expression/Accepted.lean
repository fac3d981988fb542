import UnitSystems.Proofs.Expression.Terms
import UnitSystems.Proofs.Grammar.Spacing

/-!
# Every expression is spelled as terms

Whatever is read as an expression is spelled as terms that can stand behind one another, with a
comment behind them at most. What a reader leaves is known only up to the gap that the next reader
passes over, so each step speaks of every text that reaches the same place.
-/

namespace UnitSystems.Spelled

open Grammar

section

variable {p : Pattern Part} (hadvances : p.advances = true)
  (hrefuses : ['\n', '\r'].all p.refuses = true)

include hadvances hrefuses

/-- What takes a character within a line is not read at a line break. -/
theorem isLineBreak_of_read {text : List Char} {reading : Reading Part}
    (h : p.read text = some reading) : ∃ c more, text = c :: more ∧ isLineBreak c = false := by
  have hempty : p.read [] = none := by
    cases hread : p.read [] with
    | none => rfl
    | some found => exact absurd (p.length_of_advances hadvances _ _ _ hread) (Nat.not_lt_zero _)
  cases text with
  | nil =>
    rw [hempty] at h
    contradiction
  | cons c more =>
    refine ⟨c, more, rfl, ?_⟩
    by_contra hbreak
    have hrefused : p.refuses c = true := by
      refine List.all_eq_true.mp hrefuses c ?_
      simp only [isLineBreak, Bool.not_eq_false, Bool.or_eq_true, beq_iff_eq] at hbreak
      simpa using hbreak
    rw [show c :: more = [] ++ c :: more from rfl, p.read_append_refused c hrefused, hempty] at h
    contradiction

/-- What is read behind a gap is read behind blanks. -/
theorem exists_of_read_blanks {text rest : List Char} {pieces : List (Piece Part)}
    (h : afterGap p.read text = some (pieces, rest)) :
    ∃ (blanks : Blanks) (inner : List (Piece Part)),
      text = blanks.1 ++ (Piece.textOf inner ++ rest) ∧
      p.read (Piece.textOf inner ++ rest) = some (inner, rest) ∧
      pieces = .plain blanks.1 :: inner := by
  obtain ⟨inner, hinner, rfl⟩ := exists_of_afterGap h
  obtain ⟨c, more, htext, hc⟩ := isLineBreak_of_read hadvances hrefuses hinner
  have hlossless := p.lossless _ _ _ hinner
  refine ⟨⟨(gap text).1, isBlank_of_mem_gap (congrArg List.head? htext) hc⟩, inner, ?_, ?_, rfl⟩
  · rw [hlossless, gap_append]
  · rwa [hlossless]

end

/-- A character within a line is reached over blanks. -/
theorem exists_blanks {text more : List Char} {c : Char} (h : (gap text).2 = c :: more)
    (hc : isLineBreak c = false) : ∃ blanks : Blanks, text = blanks.1 ++ c :: more :=
  ⟨⟨(gap text).1, isBlank_of_mem_gap (congrArg List.head? h) hc⟩,
    (gap_append text).symm.trans (congrArg _ h)⟩

/-- Behind a gap, an optional pattern is read, or the gap alone is passed over. -/
theorem of_afterGap_optional {p : Pattern Part} {text rest : List Char} {pieces : List (Piece Part)}
    (h : afterGap (Pattern.optional p).read text = some (pieces, rest)) :
    afterGap p.read text = some (pieces, rest) ∨
      p.read (gap text).2 = none ∧ pieces = [.plain (gap text).1] ∧ rest = (gap text).2 := by
  rw [afterGap, Pattern.read] at h
  cases hread : p.read (gap text).2 with
  | none =>
    rw [hread] at h
    obtain ⟨rfl, rfl⟩ := Prod.mk.inj (Option.some.inj h)
    exact .inr ⟨rfl, rfl, rfl⟩
  | some reading =>
    rw [hread] at h
    refine .inl ?_
    rw [afterGap, hread]
    exact h

/-- A denominator is read to its end. -/
theorem exists_of_read_positive {text rest : List Char} {pieces : List (Piece Part)}
    (h : Form.positive.read text = some (pieces, rest)) : ∃ digits,
    pieces = [.leaf .positive digits] ∧
      Form.positive.read digits = some ([.leaf .positive digits], []) := by
  obtain ⟨inner, hinner, rfl⟩ := Pattern.exists_of_read_leaf h
  obtain ⟨c, more, hc, hmore, htext, -⟩ := of_read_run hinner
  refine ⟨c :: more, by rw [htext], ?_⟩
  exact Pattern.read_leaf _ _ _ _ _ _ (List.append_nil _) (Pattern.read_joined _ _ _ more _
    [.plain [c]] _ (by simp [Pattern.read, hc]) (read_run isDigit more hmore))

/-- An integer is read to its end. -/
theorem exists_of_read_integer {text rest : List Char} {pieces : List (Piece Part)}
    (h : Form.integer.read text = some (pieces, rest)) : ∃ digits,
    pieces = [.leaf .integer digits] ∧
      Form.integer.read digits = some ([.leaf .integer digits], []) := by
  obtain ⟨inner, hinner, rfl⟩ := Pattern.exists_of_read_leaf h
  obtain ⟨minus, middle, run, hminus, hrun, rfl⟩ := Pattern.exists_of_read_joined hinner
  obtain ⟨c, more, hc, hmore, htext, -⟩ := of_read_run hrun
  have hdigits : (Form.someOf isDigit).read (c :: more) = some ([.plain [c], .plain more], []) :=
    Pattern.read_joined _ _ _ more _ [.plain [c]] _ (by simp [Pattern.read, hc])
      (read_run isDigit more hmore)
  refine ⟨Piece.textOf minus ++ c :: more, by rw [Piece.textOf_append, htext], ?_⟩
  refine Pattern.read_leaf _ _ _ _ _ _ (List.append_nil _)
    (Pattern.read_joined _ _ _ (c :: more) _ minus _ ?_ hdigits)
  rcases Pattern.of_read_optional hminus with hword | ⟨rfl, -⟩
  · obtain ⟨-, rfl⟩ := Pattern.of_read_word hword
    rfl
  · have hminus : '-' ≠ c := by
      rintro rfl
      contradiction
    simp [Pattern.read, Form.text, List.isPrefixOf?, hminus, Piece.textOf]

/-- A number that was read and denotes a value is a numeral. -/
theorem exists_numeral {name : Part} {p : Pattern Part} {digits : List Char} {value : Int32}
    {start : Place} (hreads : p.read digits = some ([.leaf name digits], []))
    (hvalue : Expression.numberAt start digits = .ok value) :
    ∃ n : Numeral name p, n.digits = digits ∧ n.value = value := by
  refine ⟨⟨digits, value, hreads, ?_⟩, rfl, rfl⟩
  unfold Expression.numberAt at hvalue
  split at hvalue
  · next found hfound => rw [hfound, Except.ok.inj hvalue]
  · contradiction

/-- The character of a word of one is reached over blanks. -/
theorem exists_of_read_mark {c : Char} (hc : isLineBreak c = false) {text rest : List Char}
    {pieces : List (Piece Part)} (h : afterGap (Pattern.word [c]).read text = some (pieces, rest)) :
    ∃ blanks : Blanks, text = blanks.1 ++ c :: rest ∧ pieces = [.plain blanks.1, .plain [c]] ∧
      (gap text).2 = c :: rest := by
  obtain ⟨inner, hinner, rfl⟩ := exists_of_afterGap h
  obtain ⟨htext, rfl⟩ := Pattern.of_read_word hinner
  exact ⟨⟨(gap text).1, isBlank_of_mem_gap (congrArg List.head? htext.symm) hc⟩,
    (gap_append text).symm.trans (congrArg _ htext.symm), rfl, htext.symm⟩

/-- Behind an integer stands a bar with a denominator, or none can be read. -/
theorem exists_bar {text rest : List Char} {pieces : List (Piece Part)}
    (h : afterGap (Pattern.optional fraction).read text = some (pieces, rest)) {start : Place}
    {numerator : Int32} {result : Int32 × Int32} {ending : List (Piece Part)}
    (hending : Piece.ArePlain ending)
    (hratio : Expression.readRatio (numerator, 1) (located start (pieces ++ ending)) = .ok result) :
    ∃ (bar : Option Bar) (tail : List Char), text = barText bar ++ tail ∧
      (gap tail).2 = (gap rest).2 ∧ (bar = none → fraction.read (gap tail).2 = none) ∧
      result = (numerator, bar.elim 1 (·.denominator.value)) := by
  rcases of_afterGap_optional h with hfraction | ⟨hnone, rfl, rfl⟩
  · obtain ⟨mark, middle, second, hmark, hdigits, rfl⟩ :=
      (Pattern.afterGap_spaced_iff _ _).mp hfraction
    obtain ⟨before, rfl, rfl, -⟩ := exists_of_read_mark (c := '/') (by decide) hmark
    obtain ⟨after, inner, rfl, hinner, rfl⟩ :=
      exists_of_read_blanks (p := Form.positive) (by decide) (by decide) hdigits
    obtain ⟨digits, rfl, hreads⟩ := exists_of_read_positive hinner
    simp only [List.cons_append, List.nil_append, located, Expression.readRatio] at hratio
    split at hratio
    · next value hvalue =>
      rw [readRatio_plain hending] at hratio
      obtain ⟨n, rfl, rfl⟩ := exists_numeral hreads hvalue
      obtain rfl := Except.ok.inj hratio
      refine ⟨some ⟨before, after, n⟩, rest, ?_, rfl,
        fun hnone => absurd hnone (Option.some_ne_none _), rfl⟩
      simp [barText, Piece.textOf, Piece.text]
    · contradiction
  · rw [List.singleton_append, located, Expression.readRatio, readRatio_plain hending] at hratio
    · exact ⟨none, text, rfl, (gap_gap text).symm, fun _ => hnone, (Except.ok.inj hratio).symm⟩
    all_goals simp

/-- What is read as an exponent behind a gap is spelled as one behind blanks. -/
theorem exists_exponent (before : Blanks) {text rest : List Char} {parts : List (Piece Part)}
    (h : Form.exponent.read (gap text).2 = some ([.branch .exponent parts], rest)) {start : Place}
    {result : Int32 × Int32}
    (hratio : Expression.readRatio (1, 1) (located start parts) = .ok result) :
    ∃ e : Exponent, e.before = before ∧ ∃ tail, text = e.after.1 ++ (e.inner ++ tail) ∧
      (gap tail).2 = (gap rest).2 ∧ (e.TakesBar → fraction.read (gap tail).2 = none) ∧
      result = (e.numerator.value, e.denominator) := by
  obtain ⟨inner, hinner, heq⟩ := Pattern.exists_of_read_branch h
  cases heq
  rcases Pattern.of_read_either hinner with hparenthesized | hbare
  · obtain ⟨mark, middle, body, hmark, hbody, rfl⟩ := Pattern.exists_of_read_spaced hparenthesized
    obtain ⟨htext, rfl⟩ := Pattern.of_read_word hmark
    obtain ⟨after, rfl⟩ := exists_blanks (c := '(') htext.symm (by decide)
    obtain ⟨integer, afterInteger, others, hinteger, hothers, rfl⟩ :=
      (Pattern.afterGap_spaced_iff _ _).mp hbody
    obtain ⟨barPieces, afterBar, last, hbar, hlast, rfl⟩ :=
      (Pattern.afterGap_spaced_iff _ _).mp hothers
    obtain ⟨opening, found, rfl, hfound, rfl⟩ :=
      exists_of_read_blanks (p := Form.integer) (by decide) (by decide) hinteger
    obtain ⟨digits, rfl, hreads⟩ := exists_of_read_integer hfound
    obtain ⟨skipped, -, rfl, hclose⟩ := exists_of_read_mark (c := ')') (by decide) hlast
    simp only [List.cons_append, List.nil_append, located, Expression.readRatio] at hratio
    split at hratio
    · next value hvalue =>
      obtain ⟨n, rfl, rfl⟩ := exists_numeral hreads hvalue
      obtain ⟨bar, tail, rfl, htail, -, rfl⟩ :=
        exists_bar hbar (by simp [Piece.ArePlain]) hratio
      obtain ⟨closing, rfl⟩ := exists_blanks (htail.trans hclose) (by decide)
      refine ⟨⟨before, after, some (opening, closing), n, bar⟩, rfl, rest, ?_, rfl,
        fun hbare => absurd hbare.1 (Option.some_ne_none _), rfl⟩
      simp [Exponent.inner, Piece.textOf, Piece.text]
    · contradiction
  · obtain ⟨integer, middle, barPieces, hinteger, hbar, rfl⟩ := Pattern.exists_of_read_spaced hbare
    obtain ⟨c, more, htext, hc⟩ :=
      isLineBreak_of_read (p := Form.integer) (by decide) (by decide) hinteger
    obtain ⟨after, hafter⟩ := exists_blanks htext hc
    have hlossless := Pattern.lossless _ _ _ _ hinteger
    obtain ⟨digits, rfl, hreads⟩ := exists_of_read_integer hinteger
    simp only [List.cons_append, List.nil_append, located, Expression.readRatio] at hratio
    split at hratio
    · next value hvalue =>
      obtain ⟨n, rfl, rfl⟩ := exists_numeral hreads hvalue
      obtain ⟨bar, tail, rfl, htail, hnone, rfl⟩ :=
        exists_bar hbar (List.forall_mem_nil _) (by rwa [List.append_nil])
      refine ⟨⟨before, after, none, n, bar⟩, rfl, tail, ?_, htail, fun hbare => hnone hbare.2, rfl⟩
      rw [hafter, ← htext, ← hlossless]
      simp [Exponent.inner, Piece.textOf, Piece.text]
    · contradiction

/-- Behind a base stands an exponent, or no sign of one. -/
theorem exists_exponentText {base : Base} {text rest : List Char} {pieces : List (Piece Part)}
    (h : afterGap (Pattern.optional raised).read text = some (pieces, rest)) {start : Place}
    {result : Base × Int32 × Int32}
    (hpower : Expression.readPower base (1, 1) (located start pieces) = .ok result) :
    ∃ (exponent : Option Exponent) (tail : List Char), text = exponentText exponent ++ tail ∧
      (gap tail).2 = (gap rest).2 ∧
      (∀ e ∈ exponent, e.TakesBar → fraction.read (gap tail).2 = none) ∧
      result = (base, exponent.elim 1 (·.numerator.value),
        exponent.elim 1 Exponent.denominator) := by
  rcases of_afterGap_optional h with hraised | ⟨-, rfl, rfl⟩
  · obtain ⟨mark, middle, second, hmark, hexponent, rfl⟩ :=
      (Pattern.afterGap_spaced_iff _ _).mp hraised
    obtain ⟨before, rfl, rfl, -⟩ := exists_of_read_mark (c := '^') (by decide) hmark
    obtain ⟨branch, hbranch, rfl⟩ := exists_of_afterGap hexponent
    obtain ⟨parts, -, rfl⟩ := Pattern.exists_of_read_branch hbranch
    simp only [List.cons_append, List.nil_append, located, Expression.readPower] at hpower
    split at hpower
    · next ratio hratio =>
      obtain ⟨e, rfl, tail, rfl, htail, hbar, rfl⟩ := exists_exponent before hbranch hratio
      refine ⟨some e, tail, ?_, htail, ?_, (Except.ok.inj hpower).symm⟩
      · simp [exponentText, Exponent.text]
      · rintro _ ⟨⟩
        exact hbar
    · contradiction
  · obtain rfl := Except.ok.inj hpower
    exact ⟨none, text, rfl, (gap_gap text).symm, by simp, rfl⟩

/-- A base that was read can be written. -/
theorem isWritable_of_read_base {base : Base} {text rest : List Char}
    (h : (Pattern.either Form.identifier Form.one).read text = some ([base.piece], rest)) :
    base.IsWritable := by
  cases base with
  | one => trivial
  | unit name =>
    have hdemands : (Pattern.either Form.identifier Form.one).Demands IsLexeme :=
      ⟨demands_identifier, fun _ _ _ _ => trivial⟩
    have hmeet := Pattern.meets _ hdemands _ _ _ h
    have hlexeme : IsName (String.ofList name.toList) := (Piece.meet_leaf_iff _ _).mp hmeet
    rwa [String.ofList_toList] at hlexeme

/-- What is read as a factor behind a gap is spelled as a base with or without an exponent. -/
theorem exists_body {text rest : List Char} {parts : List (Piece Part)}
    (h : Form.factor.read (gap text).2 = some ([.branch .factor parts], rest)) {start : Place}
    {factor : Factor} (hfactor : Expression.readFactor start parts = .ok factor) :
    ∃ (lead : Blanks) (base : Base) (exponent : Option Exponent) (tail : List Char),
      base.IsWritable ∧ text = lead.1 ++ (base.written ++ (exponentText exponent ++ tail)) ∧
      (gap tail).2 = (gap rest).2 ∧
      (∀ e ∈ exponent, e.TakesBar → fraction.read (gap tail).2 = none) ∧
      factor.power = ⟨base, exponent.elim 1 (·.numerator.value),
        exponent.elim 1 Exponent.denominator⟩ := by
  obtain ⟨inner, hinner, heq⟩ := Pattern.exists_of_read_branch h
  cases heq
  obtain ⟨first, middle, second, hfirst, hsecond, rfl⟩ := Pattern.exists_of_read_spaced hinner
  obtain ⟨c, more, htext, hc⟩ := isLineBreak_of_read (by decide) (by decide) hfirst
  obtain ⟨lead, hlead⟩ := exists_blanks htext hc
  have hlossless := Pattern.lossless _ _ _ _ hfirst
  obtain ⟨base, rfl, -⟩ := Expression.exists_of_read_base hfirst
  obtain ⟨result, hpower, rfl⟩ := (map_eq_ok_iff _ _ _).mp hfactor
  rw [List.singleton_append, located, Expression.readPower_piece] at hpower
  obtain ⟨exponent, tail, rfl, htail, hbar, rfl⟩ := exists_exponentText hsecond hpower
  refine ⟨lead, base, exponent, tail, isWritable_of_read_base hfirst, ?_, htail, hbar, rfl⟩
  rw [hlead, ← htext, ← hlossless, Piece.textOf, Piece.textOf, List.append_nil,
    Expression.text_piece]

/-- A sign is read as its character. -/
theorem exists_of_read_operator {text rest : List Char} {pieces : List (Piece Part)}
    (h : afterGap Form.operator.read text = some (pieces, rest)) : ∃ sign : Sign,
    (gap text).2 = sign.mark :: rest ∧
      pieces = [.plain (gap text).1, .branch .operator [.plain [sign.mark]]] := by
  obtain ⟨inner, hinner, rfl⟩ := exists_of_afterGap h
  obtain ⟨parts, hparts, rfl⟩ := Pattern.exists_of_read_branch hinner
  rcases Pattern.of_read_either hparts with htimes | hover
  · obtain ⟨htext, rfl⟩ := Pattern.of_read_word htimes
    exact ⟨.times, htext.symm, rfl⟩
  · obtain ⟨htext, rfl⟩ := Pattern.of_read_word hover
    exact ⟨.over, htext.symm, rfl⟩

/-- The piece of a sign denotes it. -/
theorem readSign_mark (sign : Sign) : Expression.readSign [.plain [sign.mark]] = sign := by
  cases sign <;> rfl

/-- Terms that a text consists of, with a comment behind them at most, and whose powers an
expression has. -/
structure IsSpelledAs (text : List Char) (e : Expression) (terms : List Term)
    (comment : List Char) : Prop where
  text_eq : text = terms.flatMap Term.text ++ comment
  isGap : IsGap comment
  begins : ∀ c ∈ comment.head?, c = '#'
  chain : terms.IsChain Term.Apart
  powers : powers e = terms.map Term.signed

/-- A term is read behind its sign, and then what is read behind it. -/
theorem exists_term (sign : Sign) {body middle : List Char} {pieces more : List (Piece Part)}
    (hbody : afterGap Form.factor.read body = some (pieces, middle)) {start : Place}
    {e : Expression}
    (hfactors : Expression.readFactors sign (located start (pieces ++ more)) = .ok e)
    (hmore : ∀ start others tail, Expression.readFactors sign (located start more) = .ok others →
      (gap tail).2 = (gap middle).2 → ∃ (trail : Blanks) (text : List Char) (terms : List Term)
        (comment : List Char), tail = trail.1 ++ text ∧ IsSpelledAs text others terms comment) :
    ∃ t terms comment, IsSpelledAs (sign.mark :: body) e (t :: terms) comment := by
  obtain ⟨inner, hinner, rfl⟩ := exists_of_afterGap hbody
  obtain ⟨parts, -, rfl⟩ := Pattern.exists_of_read_branch hinner
  simp only [List.cons_append, List.nil_append, located, Expression.readFactors] at hfactors
  split at hfactors
  · next factor hfactor =>
    obtain ⟨others, hothers, rfl⟩ := (map_eq_ok_iff _ _ _).mp hfactors
    obtain ⟨lead, base, exponent, tail, hbase, rfl, htail, hbar, hpower⟩ :=
      exists_body hinner hfactor
    obtain ⟨trail, text, terms, comment, rfl, hspelled⟩ := hmore _ _ tail hothers htail
    obtain rfl := hspelled.text_eq
    refine ⟨⟨sign, lead, base, hbase, exponent, trail⟩, terms, comment, ?_, hspelled.isGap,
      hspelled.begins, List.isChain_cons.mpr ⟨?_, hspelled.chain⟩, ?_⟩
    · simp [Term.text, Term.body]
    · intro u hu e he hbars
      obtain ⟨terms, rfl⟩ : ∃ more, terms = u :: more := List.head?_eq_some_iff.mp hu
      have hnone := hbar e he hbars
      rwa [List.flatMap_cons, List.append_assoc, gap_blanks trail (isSolid_text u _),
        read_fraction_eq_none_iff] at hnone
    · show (sign, factor.power) :: powers others = _
      rw [hpower, hspelled.powers]
      rfl
  · contradiction

/-- What is read round by round up to the end is spelled as terms, behind blanks and wherever the
rounds begin. -/
theorem exists_terms {text rest : List Char} {pieces : List (Piece Part)}
    (h : Repeats (afterGap Expression.signAndFactor.read) text pieces rest)
    (hrest : (gap rest).2 = []) (sign : Sign) (start : Place) (e : Expression) (tail : List Char)
    (hfactors : Expression.readFactors sign (located start (pieces ++ endPieces rest)) = .ok e)
    (htail : (gap tail).2 = (gap text).2) :
    ∃ (trail : Blanks) (text : List Char) (terms : List Term) (comment : List Char),
      tail = trail.1 ++ text ∧ IsSpelledAs text e terms comment := by
  induction h generalizing sign start e tail with
  | stop hstop =>
    have hgap : IsGap tail := htail.trans hrest
    obtain ⟨blanks, comment, rfl, hblanks, hcomment, hhead⟩ := hgap.exists_parts
    obtain rfl := Except.ok.inj hfactors
    exact ⟨⟨blanks, hblanks⟩, comment, [], comment, rfl, rfl, isGap_comment comment hcomment hhead,
      hhead, .nil, rfl⟩
  | @round text middle rest first more hround hmore ih =>
    obtain ⟨operator, body, factorPieces, hoperator, hbody, rfl⟩ :=
      (Pattern.afterGap_spaced_iff _ _).mp hround
    obtain ⟨next, htext, rfl⟩ := exists_of_read_operator hoperator
    obtain ⟨before, rfl⟩ := exists_blanks (htail.trans htext) (by cases next <;> decide)
    simp only [List.cons_append, List.nil_append, List.append_assoc, located,
      Expression.readFactors, readSign_mark] at hfactors
    obtain ⟨t, terms, comment, hspelled⟩ := exists_term next hbody hfactors (ih hrest next)
    exact ⟨before, _, t :: terms, comment, rfl, hspelled⟩

/-- Every expression is spelled as terms that can stand behind one another, with a comment behind
them at most, and has the powers of the terms. -/
theorem exists_terms_of_parse {text : String} {e : Expression} (h : Expression.parse text = .ok e) :
    ∃ t terms comment, IsSpelledAs ('*' :: text.toList) e (t :: terms) comment := by
  obtain ⟨first, middle, pieces, rest, hfirst, hpieces, hrest, hfactors⟩ :=
    (parse_eq_ok_iff text e).mp h
  refine exists_term .times hfirst hfactors fun start others tail hothers htail => ?_
  obtain ⟨hnone, rfl, rfl⟩ | ⟨-, hrepeats⟩ :=
    (Pattern.afterGap_spacedMany_iff (p := Expression.signAndFactor) (by decide)).mp hpieces
  · rw [gap_gap] at hrest
    exact exists_terms (.stop (by rw [afterGap, hnone]; rfl)) hrest .times start others tail hothers
      htail
  · exact exists_terms hrepeats hrest .times start others tail hothers htail

end UnitSystems.Spelled
