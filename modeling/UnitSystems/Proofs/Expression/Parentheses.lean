import Mathlib.Data.List.Basic
import UnitSystems.Proofs.Expression.Accepted
import UnitSystems.Proofs.Expression.Alike

/-!
# Parentheses around exponents

An exponent has the same value in parentheses and without them, but where it ends without them
depends on what follows. Without a denominator of its own it takes the bar and the one of a quotient
by one. That changes no value, unless the one has an exponent: then the text is no expression.
-/

namespace UnitSystems.Spelled

open Grammar

/-- A character of a text of which the text before is free stands at one place. -/
theorem append_cons_inj_of_notMem_left {α : Type} {c : α} {first first' second second' : List α}
    (h : first ++ c :: second = first' ++ c :: second') (hfirst : c ∉ first)
    (hfirst' : c ∉ first') : first = first' ∧ second = second' := by
  rcases List.append_eq_append_iff.mp h with ⟨between, rfl, hbetween⟩ | ⟨between, rfl, hbetween⟩
  · cases between with
    | nil => exact ⟨(List.append_nil _).symm, (List.cons.inj hbetween).2⟩
    | cons d between =>
      obtain rfl := (List.cons.inj hbetween).1
      exact absurd (List.mem_append_right first List.mem_cons_self) hfirst'
  · cases between with
    | nil => exact ⟨List.append_nil _, (List.cons.inj hbetween).2.symm⟩
    | cons d between =>
      obtain rfl := (List.cons.inj hbetween).1
      exact absurd (List.mem_append_right first' List.mem_cons_self) hfirst

/-- Blanks one behind the other. -/
def Blanks.append (first second : Blanks) : Blanks :=
  ⟨first.1 ++ second.1, List.forall_mem_append.mpr ⟨first.2, second.2⟩⟩

/-- No blanks. -/
def Blanks.none : Blanks :=
  ⟨[], List.forall_mem_nil _⟩

/-- A sign and a power whose exponent stands in parentheses. -/
structure Wrapped where
  sign : Sign
  lead : Blanks
  base : Base
  writable : base.IsWritable
  before : Blanks
  after : Blanks
  opening : Blanks
  numerator : Numeral .integer Form.integer
  bar : Option Bar
  closing : Blanks
  trail : Blanks

namespace Wrapped

variable (w : Wrapped)

/-- The term with its parentheses. -/
def term : Term where
  sign := w.sign
  lead := w.lead
  base := w.base
  writable := w.writable
  exponent := some ⟨w.before, w.after, some (w.opening, w.closing), w.numerator, w.bar⟩
  trail := w.trail

/-- The term without its parentheses. The blanks inside them stay. -/
def bare : Term where
  sign := w.sign
  lead := w.lead
  base := w.base
  writable := w.writable
  exponent := some ⟨w.before, w.after.append w.opening, none, w.numerator, w.bar⟩
  trail := w.closing.append w.trail

/-- What stands before the parentheses. -/
def front : List Char :=
  w.sign.mark :: (w.lead.1 ++ (w.base.written ++ (w.before.1 ++ '^' :: w.after.1)))

/-- What stands in the parentheses. -/
def inside : List Char :=
  w.opening.1 ++ (w.numerator.digits ++ (barText w.bar ++ w.closing.1))

/-- The parentheses stand around what is inside. -/
theorem text_term : w.term.text = w.front ++ '(' :: (w.inside ++ ')' :: w.trail.1) := by
  simp [term, front, inside, Term.text, Term.body, exponentText, Exponent.text, Exponent.inner]

/-- Without the parentheses the rest of the term stays. -/
theorem text_bare : w.bare.text = w.front ++ (w.inside ++ w.trail.1) := by
  simp [bare, front, inside, Term.text, Term.body, exponentText, Exponent.text, Exponent.inner,
    Blanks.append]

/-- The denominator one. -/
def one : Numeral .positive Form.positive :=
  ⟨['1'], 1, rfl, by decide⟩

/-- The term without its parentheses that takes the bar and the one of a quotient. -/
def absorbing (lead trail : Blanks) : Term where
  sign := w.sign
  lead := w.lead
  base := w.base
  writable := w.writable
  exponent := some ⟨w.before, w.after.append w.opening, none, w.numerator,
    some ⟨w.closing.append w.trail, lead, one⟩⟩
  trail := trail

/-- A term with a quotient by one behind it is spelled as one that takes the quotient. -/
theorem text_absorbing (hbar : w.bar = none) (u : Term) (hsign : u.sign = .over)
    (hbase : u.base = .one) : w.bare.text ++ u.text =
      (w.absorbing u.lead Blanks.none).text ++ (exponentText u.exponent ++ u.trail.1) := by
  simp [bare, absorbing, Term.text, Term.body, exponentText, Exponent.text, Exponent.inner,
    Blanks.append, Blanks.none, hbar, barText, hsign, hbase, Sign.mark, Base.written, one]

end Wrapped

/-- Other characters than blanks stand in no blanks. -/
theorem notMem_blanks {c : Char} (hc : isBlank c = false) (blanks : Blanks) : c ∉ blanks.1 := by
  intro hmem
  rw [blanks.2 c hmem] at hc
  contradiction

section

variable {c : Char} (hc : c ∈ ['(', ')'])

include hc

/-- Parentheses are no blanks. -/
theorem isBlank_parenthesis : isBlank c = false := by
  simp only [List.mem_cons, List.not_mem_nil, or_false] at hc
  rcases hc with rfl | rfl <;> decide

/-- Parentheses end names and numbers. -/
theorem mem_separators : c ∈ separators := by
  simp only [List.mem_cons, List.not_mem_nil, or_false] at hc
  rcases hc with rfl | rfl <;> decide

/-- Parentheses are no other marks. -/
theorem ne_mark (sign : Sign) : c ≠ sign.mark ∧ c ≠ '/' ∧ c ≠ '^' := by
  simp only [List.mem_cons, List.not_mem_nil, or_false] at hc
  rcases hc with rfl | rfl <;> cases sign <;> decide

/-- No parenthesis stands in a bar. -/
theorem notMem_barText (bar : Option Bar) : c ∉ barText bar := by
  cases bar with
  | none => exact List.not_mem_nil
  | some bar =>
    have hdigits := notMem_of_read (by decide) bar.denominator.reads c (mem_separators hc)
    simp [barText, notMem_blanks (isBlank_parenthesis hc), (ne_mark hc .over).2.1, hdigits]

/-- No parenthesis stands before an exponent in parentheses. -/
theorem Wrapped.notMem_front (w : Wrapped) : c ∉ w.front := by
  have hbase := notMem_of_read (by decide) (read_written w.writable) c (mem_separators hc)
  obtain ⟨hsign, -, hcaret⟩ := ne_mark hc w.sign
  simp [front, notMem_blanks (isBlank_parenthesis hc), hbase, hsign, hcaret]

/-- No parenthesis stands inside parentheses. -/
theorem Wrapped.notMem_inside (w : Wrapped) : c ∉ w.inside := by
  have hdigits := notMem_of_read (by decide) w.numerator.reads c (mem_separators hc)
  simp [inside, notMem_blanks (isBlank_parenthesis hc), hdigits, notMem_barText hc]

/-- A term with a parenthesis has its exponent in parentheses. -/
theorem exists_wrapped (t : Term) (h : c ∈ t.text) : ∃ w : Wrapped, w.term = t := by
  obtain ⟨sign, lead, base, writable, exponent, trail⟩ := t
  have hbase := notMem_of_read (by decide) (read_written writable) c (mem_separators hc)
  have hblanks (blanks : Blanks) := notMem_blanks (isBlank_parenthesis hc) blanks
  obtain ⟨hsign, -, hcaret⟩ := ne_mark hc sign
  cases exponent with
  | none => simp [Term.text, Term.body, exponentText, hblanks, hbase, hsign] at h
  | some e =>
    obtain ⟨before, after, parentheses, numerator, bar⟩ := e
    cases parentheses with
    | none =>
      have hdigits := notMem_of_read (by decide) numerator.reads c (mem_separators hc)
      simp [Term.text, Term.body, exponentText, Exponent.text, Exponent.inner, hblanks, hbase,
        hsign, hcaret, hdigits, notMem_barText hc] at h
    | some blanks =>
      exact ⟨⟨sign, lead, base, writable, before, after, blanks.1, numerator, bar, blanks.2, trail⟩,
        rfl⟩

end

/-- An opening parenthesis among terms, before any comment, is the one of an exponent. -/
theorem exists_wrapped_of_terms (terms : List Term) {comment before rest : List Char}
    (h : terms.flatMap Term.text ++ comment = before ++ '(' :: rest)
    (hcomment : ∀ c ∈ comment.head?, c = '#') (hbefore : '#' ∉ before) :
    ∃ first w second, terms = first ++ Wrapped.term w :: second ∧
      before = first.flatMap Term.text ++ w.front ∧
      rest = w.inside ++ ')' :: (w.trail.1 ++ (second.flatMap Term.text ++ comment)) := by
  induction terms generalizing before with
  | nil =>
    rw [List.flatMap_nil, List.nil_append] at h
    subst h
    cases before with
    | nil => exact absurd (hcomment '(' rfl) (by decide)
    | cons c before => exact absurd (hcomment c rfl ▸ List.mem_cons_self) hbefore
  | cons t terms ih =>
    rw [List.flatMap_cons, List.append_assoc] at h
    rcases List.append_eq_append_iff.mp h with ⟨later, rfl, hlater⟩ | ⟨inner, htext, hinner⟩
    · obtain ⟨first, w, second, rfl, rfl, rfl⟩ :=
        ih hlater fun hmem => hbefore (List.mem_append_right _ hmem)
      exact ⟨t :: first, w, second, rfl, by simp, rfl⟩
    · cases inner with
      | nil =>
        have hfirst : terms.flatMap Term.text ++ comment = [] ++ '(' :: rest := hinner.symm
        obtain ⟨first, w, second, rfl, hfront, rfl⟩ := ih hfirst List.not_mem_nil
        refine ⟨t :: first, w, second, rfl, ?_, rfl⟩
        rw [List.flatMap_cons, List.append_assoc, ← hfront, htext, List.append_nil, List.append_nil]
      | cons c inner =>
        obtain ⟨rfl, rfl⟩ := List.cons.inj hinner
        obtain ⟨w, rfl⟩ := exists_wrapped (c := '(') (by decide) t (htext ▸ by simp)
        have hback : '(' ∉ w.inside ++ ')' :: w.trail.1 := by
          simp [w.notMem_inside (c := '('), notMem_blanks (c := '(') (by decide)]
        obtain ⟨rfl, -, rfl⟩ :=
          (List.append_cons_inj_of_notMem (w.notMem_front (by decide)) hback).mp
            (w.text_term.symm.trans htext)
        exact ⟨[], w, terms, rfl, rfl, by simp⟩

/-- Characters that can be seen. -/
def isVisible (c : Char) : Bool :=
  !isBlank c

/-- The text behind an exponent begins with a quotient by one with an exponent of its own. -/
def BeginsPowerOfOne (text : List Char) : Prop :=
  "/1^".toList <+: text.filter isVisible

instance (text : List Char) : Decidable (BeginsPowerOfOne text) :=
  inferInstanceAs (Decidable (_ <+: _))

/-- A bar in parentheses shows the denominator. -/
theorem Wrapped.slash_mem_inside_iff (w : Wrapped) : '/' ∈ w.inside ↔ w.bar ≠ none := by
  have hslash (blanks : Blanks) : '/' ∉ blanks.1 := notMem_blanks (by decide) blanks
  have hdigits := notMem_of_read (by decide) w.numerator.reads '/' (by decide)
  cases hbar : w.bar with
  | none => simp [inside, hbar, barText, hslash, hdigits]
  | some bar => simp [inside, hbar, barText]

/-- Nothing of blanks can be seen. -/
theorem filter_blanks (blanks : Blanks) : blanks.1.filter isVisible = [] :=
  List.filter_eq_nil_iff.mpr fun c hc => by simp [isVisible, blanks.2 c hc]

/-- A term is seen by its sign and its power. -/
theorem filter_text (t : Term) : t.text.filter isVisible = t.sign.mark ::
    (t.base.written.filter isVisible ++ (exponentText t.exponent).filter isVisible) := by
  have hmark : isVisible t.sign.mark = true := by
    cases t.sign <;> decide
  simp [Term.text, Term.body, List.filter_append, filter_blanks, hmark]

/-- The first character that is seen of terms and a comment is a sign or begins the comment. -/
theorem head_filter_terms (terms : List Term) {comment : List Char}
    (hcomment : ∀ c ∈ comment.head?, c = '#') :
    ∀ c ∈ ((terms.flatMap Term.text ++ comment).filter isVisible).head?, c ∈ ['*', '/', '#'] := by
  intro c hc
  cases terms with
  | nil =>
    cases comment with
    | nil => exact absurd hc (by simp)
    | cons first comment =>
      obtain rfl := hcomment first rfl
      obtain rfl := Option.some.inj hc
      decide
  | cons t terms =>
    rw [List.flatMap_cons, List.append_assoc, List.filter_append, filter_text] at hc
    obtain rfl := Option.some.inj hc
    cases t.sign <;> decide

/-- A base is seen to begin with the digit one only when it is the literal one. -/
theorem one_prefix_written_iff {base : Base} (h : base.IsWritable) (text more : List Char) :
    '1' :: text <+: base.written.filter isVisible ++ more ↔ base = .one ∧ text <+: more := by
  cases base with
  | one =>
    show '1' :: text <+: '1' :: more ↔ _
    simp
  | unit name =>
    obtain ⟨c, rest, hname, hc⟩ := IsName.exists_cons name h
    have hvisible : isVisible c = true := by
      have hsolid := IsName.isSolid name h [] c (by simp [hname])
      simp [isVisible, hsolid.1]
    have hone : '1' ≠ c := by
      rintro rfl
      exact absurd (isNonzeroDigit_of_isNameStart '1' hc) (by decide)
    simp [Base.written, hname, hvisible, hone]

/-- Terms begin with a quotient by one with an exponent precisely when their text does. -/
theorem beginsPowerOfOne_iff (trail : Blanks) (terms : List Term) {comment : List Char}
    (hcomment : ∀ c ∈ comment.head?, c = '#') :
    BeginsPowerOfOne (trail.1 ++ (terms.flatMap Term.text ++ comment)) ↔
      ∃ u ∈ terms.head?, u.sign = .over ∧ u.base = .one ∧ u.exponent ≠ none := by
  have hfirst {mark : Char} (hmark : mark ∉ ['*', '/', '#']) (text : List Char)
      (terms : List Term) :
      ¬ mark :: text <+: (terms.flatMap Term.text ++ comment).filter isVisible := by
    rintro ⟨more, hmore⟩
    exact hmark (head_filter_terms terms hcomment mark (by rw [← hmore]; rfl))
  rw [BeginsPowerOfOne, List.filter_append, filter_blanks, List.nil_append]
  cases terms with
  | nil =>
    refine iff_of_false ?_ (by simp)
    cases comment with
    | nil => simp
    | cons first comment =>
      obtain rfl := hcomment first rfl
      have hvisible : isVisible '#' = true := by decide
      simp [hvisible]
  | cons u terms =>
    have hmark : '/' = u.sign.mark ↔ u.sign = .over := by
      cases u.sign <;> decide
    have hcaret : ['^'] <+: (exponentText u.exponent).filter isVisible ++
        (terms.flatMap Term.text ++ comment).filter isVisible ↔ u.exponent ≠ none := by
      cases u.exponent with
      | none => exact iff_of_false (hfirst (by decide) [] terms) (by simp)
      | some e =>
        refine iff_of_true ?_ (by simp)
        have hvisible : isVisible '^' = true := by decide
        simp [exponentText, Exponent.text, List.filter_append, filter_blanks, hvisible]
    rw [List.flatMap_cons, List.append_assoc, List.filter_append, filter_text, List.cons_append,
      List.append_assoc]
    show '/' :: '1' :: ['^'] <+: _ ↔ _
    rw [List.cons_prefix_cons, one_prefix_written_iff u.writable, hmark, hcaret]
    simp

/-- A term can be replaced among terms by one with its sign and its base, if what is behind it can
stand behind that one. -/
theorem isChain_replace {first second second' : List Term} {t t' : Term}
    (h : (first ++ t :: second).IsChain Term.Apart) (hsign : t'.sign = t.sign)
    (hbase : t'.base = t.base) (hsecond : (t' :: second').IsChain Term.Apart) :
    (first ++ t' :: second').IsChain Term.Apart := by
  obtain ⟨hfirst, -, hbetween⟩ := List.isChain_append.mp h
  refine List.isChain_append.mpr ⟨hfirst, hsecond, fun u hu v hv => ?_⟩
  obtain rfl := Option.some.inj hv
  intro e he hbar
  rw [hsign, hbase]
  exact hbetween u hu t rfl e he hbar

section

variable {first second : List Term} {w : Wrapped}
  (hchain : (first ++ w.term :: second).IsChain Term.Apart)

include hchain

/-- Without its parentheses, an exponent takes no bar if it has one of its own or if no quotient by
one follows. -/
theorem isChain_bare (h : w.bar = none → ∀ u ∈ second.head?, ¬(u.sign = .over ∧ u.base = .one)) :
    (first ++ w.bare :: second).IsChain Term.Apart := by
  obtain ⟨-, htail, -⟩ := List.isChain_append.mp hchain
  refine isChain_replace hchain rfl rfl
    (List.isChain_cons.mpr ⟨fun u hu e he hbar => ?_, htail.tail⟩)
  obtain rfl := Option.some.inj he
  exact h hbar.2 u hu

/-- An exponent that took the bar of a quotient takes no other one. -/
theorem isChain_absorbing {u : Term} {third : List Term} (hsecond : second = u :: third)
    (lead trail : Blanks) : (first ++ w.absorbing lead trail :: third).IsChain Term.Apart := by
  subst hsecond
  obtain ⟨-, htail, -⟩ := List.isChain_append.mp hchain
  refine isChain_replace hchain rfl rfl
    (List.isChain_cons.mpr ⟨fun v hv e he hbar => ?_, htail.tail.tail⟩)
  obtain rfl := Option.some.inj he
  exact absurd hbar.2 (Option.some_ne_none _)

end

/-- The outcomes of two texts in a system are the same: the same dimension, the same error about
dimensions, or the same unit that is unknown. -/
inductive SameOutcome (s : Specification) (first second : String) :
    Except Error Dimension → Except Error Dimension → Prop
  | value (v : Dimension) : SameOutcome s first second (.ok v) (.ok v)
  | dimension (cause : DimensionError) :
    SameOutcome s first second (.error (.dimension cause)) (.error (.dimension cause))
  | unknownUnit (name : String) (span span' : Span) : SameOutcome s first second
    (.error (.parse (Expression.unknownUnitComplaint s name span) first))
    (.error (.parse (Expression.unknownUnitComplaint s name span') second))

/-- Texts of expressions with like outcomes have the same outcome. -/
theorem SameOutcome.of_alike {s : Specification} {first second : String} {e e' : Expression}
    (hfirst : Expression.parse first = .ok e) (hsecond : Expression.parse second = .ok e')
    (h : Expression.Alike (Expression.evaluate s e) (Expression.evaluate s e')) :
    SameOutcome s first second (s.evaluate first) (s.evaluate second) := by
  rw [Expression.evaluate_of_parse s first e hfirst,
    Expression.evaluate_of_parse s second e' hsecond]
  generalize Expression.evaluate s e = outcome, Expression.evaluate s e' = other at h ⊢
  cases h with
  | value v => exact .value v
  | dimension cause => exact .dimension cause
  | unknownUnit name span span' => exact .unknownUnit name span span'

/-- Blanks and a comment can stand behind any terms. -/
theorem ending_comment (terms : List Term) {comment : List Char} (hgap : IsGap comment)
    (hbegins : ∀ c ∈ comment.head?, c = '#') : Ending terms comment [] where
  ends c hc := hbegins c hc ▸ by decide
  reaches := hgap
  stop := rfl
  free := .inl rfl

section

variable {text bare : String} {e : Expression} {first second : List Term} {w : Wrapped}
  {comment : List Char}
  (h : IsSpelledAs ('*' :: text.toList) e (first ++ w.term :: second) comment)
  (hbare : '*' :: bare.toList = (first ++ w.bare :: second).flatMap Term.text ++ comment)

include h hbare

/-- Without parentheses that keep no bar away, a text has the powers that it has with them. -/
theorem exists_parse_bare
    (hfree : w.bar = none → ∀ u ∈ second.head?, ¬(u.sign = .over ∧ u.base = .one)) :
    ∃ e', Expression.parse bare = .ok e' ∧ powers e' = powers e := by
  obtain ⟨e', he', hpowers⟩ := parse_terms (by simp) (isChain_bare h.chain hfree)
    (ending_comment _ h.isGap h.begins) hbare rfl
  refine ⟨e', he', ?_⟩
  rw [hpowers, h.powers, List.map_append, List.map_append]
  rfl

variable {u : Term} {third : List Term} (hsecond : second = u :: third) (hbar : w.bar = none)
  (hsign : u.sign = .over) (hbase : u.base = .one)

include hsecond hbar hsign hbase

omit h in
/-- Without its parentheses, an exponent takes the bar and the one of a quotient behind it. -/
theorem text_absorbed : '*' :: bare.toList =
    (first ++ [w.absorbing u.lead Blanks.none]).flatMap Term.text ++
      (exponentText u.exponent ++ (u.trail.1 ++ (third.flatMap Term.text ++ comment))) := by
  subst hsecond
  calc '*' :: bare.toList
      = first.flatMap Term.text ++
          (w.bare.text ++ u.text ++ (third.flatMap Term.text ++ comment)) := by simp [hbare]
    _ = _ := by
      rw [w.text_absorbing hbar u hsign hbase]
      simp

/-- A quotient by one without an exponent is taken as a denominator, which changes no value. -/
theorem exists_parse_absorbed (hexponent : u.exponent = none) :
    ∃ e', Expression.parse bare = .ok e' ∧
      ∀ s, Expression.Alike (Expression.evaluate s e) (Expression.evaluate s e') := by
  have htext : '*' :: bare.toList =
      (first ++ w.absorbing u.lead u.trail :: third).flatMap Term.text ++ comment := by
    rw [text_absorbed hbare hsecond hbar hsign hbase, hexponent]
    simp [Wrapped.absorbing, Blanks.none, exponentText, Term.text, Term.body]
  obtain ⟨e', he', hpowers⟩ := parse_terms (by simp)
    (isChain_absorbing h.chain hsecond u.lead u.trail) (ending_comment _ h.isGap h.begins) htext rfl
  refine ⟨e', he', fun s => ?_⟩
  have hsplit : powers e =
      (first ++ [w.term]).map Term.signed ++ u.signed :: third.map Term.signed := by
    simp [h.powers, hsecond]
  obtain ⟨before, rest, rfl, hbefore, hrest⟩ := List.map_eq_append_iff.mp hsplit
  obtain ⟨⟨sign, factor⟩, after, rfl, hone, hafter⟩ := List.map_eq_cons_iff.mp hrest
  obtain ⟨rfl, hfactor⟩ := Prod.mk.inj hone
  have hone : factor.power = ⟨.one, 1, 1⟩ := by
    rw [hfactor, Term.power, hbase, hexponent]
    rfl
  rw [hsign, Expression.evaluate_without_one s before after hone]
  refine Expression.evaluateFrom_alike s _ ?_
  calc powers (before ++ after)
      = (first ++ [w.term]).map Term.signed ++ third.map Term.signed := by
        rw [powers, List.map_append, hbefore, hafter]
    _ = powers e' := by
      simp [hpowers, Term.signed, Term.power, Wrapped.term, Wrapped.absorbing, Exponent.denominator,
        hbar, Wrapped.one]

/-- Behind a quotient by one that is taken as a denominator, its exponent cannot be read. -/
theorem parse_absorbed_stopped (hexponent : u.exponent ≠ none) :
    ∃ complaint, Expression.parse bare = .error (.parse complaint bare) := by
  obtain ⟨f, hf⟩ := Option.ne_none_iff_exists'.mp hexponent
  have htext := text_absorbed hbare hsecond hbar hsign hbase
  rw [hf, exponentText, Exponent.text, List.append_assoc, List.cons_append] at htext
  have hending : Ending (first ++ [w.absorbing u.lead Blanks.none])
      (f.before.1 ++ '^' :: (f.after.1 ++ f.inner ++
        (u.trail.1 ++ (third.flatMap Term.text ++ comment)))) ('^' :: (f.after.1 ++ f.inner ++
        (u.trail.1 ++ (third.flatMap Term.text ++ comment)))) := by
    refine ⟨ends_blanks f.before (ends_cons (by decide) _), ?_, rfl, .inr fun t ht => ?_⟩
    · rw [gap_blanks f.before (isSolid_cons '^' _ (by decide) (by decide))]
    · rw [List.getLast?_concat] at ht
      obtain rfl := Option.some.inj ht
      exact ⟨_, rfl, fun hbar => Option.some_ne_none _ hbar.2⟩
  have hchain := isChain_absorbing h.chain hsecond u.lead Blanks.none
  exact parse_stopped (by simp) (isChain_replace hchain rfl rfl (List.isChain_singleton _)) hending
    htext (List.cons_ne_nil _ _)

end

end UnitSystems.Spelled

namespace UnitSystems.Expression

open Grammar Spelled

/-- Parentheses around an exponent are optional, with one exception. From a text that is an
expression, take an opening parenthesis outside the comment and the next closing one away. If there
is no denominator between them and a quotient by one with an exponent of its own follows, the text
that is left is no expression, because the exponent takes the bar of the quotient. Otherwise it is
one, with the same outcome in every system. -/
theorem parentheses_optional (text : String) (e : Expression) (h : parse text = .ok e)
    (before inside after : List Char)
    (htext : text.toList = before ++ '(' :: (inside ++ ')' :: after))
    (hbefore : '#' ∉ before) (hinside : ')' ∉ inside) :
    let bare := String.ofList (before ++ (inside ++ after))
    ('/' ∉ inside ∧ BeginsPowerOfOne after →
      ∃ complaint, parse bare = .error (.parse complaint bare)) ∧
    (¬ ('/' ∉ inside ∧ BeginsPowerOfOne after) → (∃ e', parse bare = .ok e') ∧
      ∀ s : Specification, SameOutcome s text bare (s.evaluate text) (s.evaluate bare)) := by
  intro bare
  obtain ⟨t, terms, comment, hspelled⟩ := exists_terms_of_parse h
  have hmarked : (t :: terms).flatMap Term.text ++ comment =
      ('*' :: before) ++ '(' :: (inside ++ ')' :: after) := by
    rw [← hspelled.text_eq, htext]
    rfl
  obtain ⟨first, w, second, hterms, hfront, hrest⟩ :=
    exists_wrapped_of_terms (t :: terms) hmarked hspelled.begins (by simp [hbefore])
  obtain ⟨rfl, rfl⟩ := append_cons_inj_of_notMem_left hrest hinside (w.notMem_inside (by decide))
  rw [hterms] at hspelled
  have hbare : '*' :: bare.toList = (first ++ w.bare :: second).flatMap Term.text ++ comment := by
    rw [String.toList_ofList, ← List.cons_append, hfront]
    simp [w.text_bare]
  rw [w.slash_mem_inside_iff, not_not, beginsPowerOfOne_iff _ _ hspelled.begins]
  constructor
  · rintro ⟨hbar, u, hu, hsign, hbase, hexponent⟩
    obtain ⟨third, hthird⟩ := List.head?_eq_some_iff.mp hu
    exact parse_absorbed_stopped hspelled hbare hthird hbar hsign hbase hexponent
  · intro hexception
    suffices hsame : ∃ e', parse bare = .ok e' ∧ ∀ s, Alike (evaluate s e) (evaluate s e') by
      obtain ⟨e', he', halike⟩ := hsame
      exact ⟨⟨e', he'⟩, fun s => .of_alike h he' (halike s)⟩
    by_cases htaken : w.bar = none ∧ ∃ u ∈ second.head?, u.sign = .over ∧ u.base = .one
    · obtain ⟨hbar, u, hu, hsign, hbase⟩ := htaken
      obtain ⟨third, hthird⟩ := List.head?_eq_some_iff.mp hu
      have hexponent : u.exponent = none := by
        by_contra hexponent
        exact hexception ⟨hbar, u, hu, hsign, hbase, hexponent⟩
      exact exists_parse_absorbed hspelled hbare hthird hbar hsign hbase hexponent
    · obtain ⟨e', he', hpowers⟩ := exists_parse_bare hspelled hbare fun hbar u hu hone =>
        htaken ⟨hbar, u, hu, hone⟩
      exact ⟨e', he', fun s => evaluateFrom_alike s _ hpowers.symm⟩

/-- The parentheses around a numerator are kept by the quotient by a power of one behind them. The
others may go, and those in the comment are none. -/
theorem parentheses_optional_motion :
    let kept := "Second^(1/3) * Metre^( 2 ) / 1^3"
    let dropped := "Metre^( 2 ) / 1 * Second^(1/3) # (m)"
    (∃ complaint, parse "Second^(1/3) * Metre^ 2  / 1^3" =
      .error (.parse complaint "Second^(1/3) * Metre^ 2  / 1^3")) ∧
    (∀ s : Specification, SameOutcome s kept "Second^1/3 * Metre^( 2 ) / 1^3" (s.evaluate kept)
      (s.evaluate "Second^1/3 * Metre^( 2 ) / 1^3")) ∧
    ∀ s : Specification, SameOutcome s dropped "Metre^ 2  / 1 * Second^(1/3) # (m)"
      (s.evaluate dropped) (s.evaluate "Metre^ 2  / 1 * Second^(1/3) # (m)") := by
  intro kept dropped
  have hparse (text : String) (hsome : (parse text).toOption.isSome = true) :
      ∃ e, parse text = .ok e := by
    obtain ⟨e, he⟩ := Option.isSome_iff_exists.mp hsome
    exact ⟨e, eq_ok_of_toOption _ _ he⟩
  obtain ⟨e, he⟩ := hparse kept (by decide +kernel)
  obtain ⟨e', he'⟩ := hparse dropped (by decide +kernel)
  refine ⟨?_, ?_, ?_⟩
  · exact (parentheses_optional kept e he "Second^(1/3) * Metre^".toList " 2 ".toList
      " / 1^3".toList (by decide) (by decide) (by decide)).1 (by decide)
  · exact ((parentheses_optional kept e he "Second^".toList "1/3".toList
      " * Metre^( 2 ) / 1^3".toList (by decide) (by decide) (by decide)).2 (by decide)).2
  · exact ((parentheses_optional dropped e' he' "Metre^".toList " 2 ".toList
      " / 1 * Second^(1/3) # (m)".toList (by decide) (by decide) (by decide)).2 (by decide)).2

/-- Without its parentheses, the square of a unit takes the bar of the quotient by the cube of one,
and the text is no expression. With them, it has the square of the unit as its value. -/
theorem parentheses_not_always_optional :
    let s := motionDefinition.toSpecification 6
    motionDefinition.validate {} = .ok s ∧
      "Metre^(2)/1^3".toList = "Metre^".toList ++ '(' :: ("2".toList ++ ')' :: "/1^3".toList) ∧
      s.evaluate "Metre^(2)/1^3" = .ok ⟨[12, 0]⟩ ∧
      "Metre^2/1^3".toList = "Metre^".toList ++ ("2".toList ++ "/1^3".toList) ∧
      ∃ complaint, parse "Metre^2/1^3" = .error (.parse complaint "Metre^2/1^3") ∧
        s.evaluate "Metre^2/1^3" = .error (.parse complaint "Metre^2/1^3") := by
  intro s
  have hnone : (parse "Metre^2/1^3").toOption = none := by decide +kernel
  refine ⟨validate_motionDefinition, by decide, eq_ok_of_toOption _ _ (by decide +kernel),
    by decide, ?_⟩
  cases hparse : parse "Metre^2/1^3" with
  | ok e => simp [hparse, Except.toOption] at hnone
  | error error =>
    obtain ⟨complaint, rfl⟩ := parse_error _ error hparse
    refine ⟨complaint, rfl, ?_⟩
    rw [Specification.evaluate, hparse]
    rfl

end UnitSystems.Expression
