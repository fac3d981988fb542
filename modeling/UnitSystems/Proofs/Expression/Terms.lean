import Mathlib.Data.List.Chain
import UnitSystems.Proofs.Expression.Spelling

/-!
# Reading terms back

Terms that can stand behind one another are read one after the other, up to a text that none of
them takes anything of. An expression that is spelled so has the powers of the terms. Where the text
behind the terms is more than blanks and a comment, it is no expression.
-/

namespace UnitSystems.Spelled

open Grammar

/-- The powers of an expression, with their signs. -/
def powers (e : Expression) : List (Sign × Power) :=
  e.map fun term => (term.1, term.2.power)

/-- The power of a term with its sign. -/
def Term.signed (t : Term) : Sign × Power :=
  (t.sign, t.power)

/-- Pieces without branches hold no factor. -/
theorem readFactors_leaves (sign : Sign) (start : Place) (pieces : List (Piece Part))
    (h : ∀ name parts, .branch name parts ∉ pieces) :
    Expression.readFactors sign (located start pieces) = .ok [] := by
  induction pieces generalizing start with
  | nil => rfl
  | cons piece pieces ih =>
    have hmore : ∀ name parts, Piece.branch name parts ∉ pieces := fun name parts hmem =>
      h name parts (List.mem_cons_of_mem _ hmem)
    cases piece with
    | plain text => exact ih _ hmore
    | leaf name text => exact ih _ hmore
    | branch name parts => exact absurd List.mem_cons_self (h name parts)

/-- Terms are read one after the other up to a text, and their pieces denote powers. -/
def Reads (text : List Char) (found : List (Sign × Power)) (last : List Char) : Prop :=
  ∃ pieces rest, Repeats (afterGap Expression.signAndFactor.read) text pieces rest ∧
    (gap rest).2 = last ∧ ∀ sign start ending, (∀ name parts, .branch name parts ∉ ending) →
      ∃ e, Expression.readFactors sign (located start (pieces ++ ending)) = .ok e ∧
        powers e = found

/-- Nothing is read where no sign stands. -/
theorem reads_nil {text last : List Char} (hlast : (gap text).2 = last)
    (hstop : Expression.signAndFactor.read last = none) : Reads text [] last := by
  refine ⟨[], text, .stop ?_, hlast, fun sign start ending hending => ?_⟩
  · rw [afterGap, hlast, hstop]
    rfl
  · exact ⟨[], readFactors_leaves sign start ending hending, rfl⟩

/-- A term is read, and then what is read behind it. -/
theorem Reads.cons (t : Term) {text more last : List Char} {found : List (Sign × Power)}
    (hmore : t.Precedes more) (hnext : ∀ text, (gap text).2 = (gap more).2 → Reads text found last)
    (htext : (gap text).2 = t.text ++ more) : Reads text (t.signed :: found) last := by
  obtain ⟨parts, rest, hread, hrest, hdenotes⟩ := read_body t hmore
  obtain ⟨pieces, left, hrepeats, hlast, hfactors⟩ := hnext rest hrest
  have hterm : afterGap Expression.signAndFactor.read text = some ([.plain (gap text).1,
      .branch .operator [.plain [t.sign.mark]], .plain t.lead.1, .branch .factor parts], rest) := by
    have hsign : Form.operator.read (t.sign.mark :: (t.lead.1 ++ (t.body ++ more))) =
        some ([.branch .operator [.plain [t.sign.mark]]], t.lead.1 ++ (t.body ++ more)) := by
      cases t.sign <;> rfl
    rw [afterGap, htext, Term.text, List.cons_append, List.append_assoc,
      Expression.signAndFactor, Pattern.read_spaced _ _ _ _ _ _ _ _ _ hsign
        (gap_blanks t.lead (isSolid_body t more)) hread]
    rfl
  refine ⟨_, left, .round hterm hrepeats, hlast, fun sign start ending hending => ?_⟩
  have hreadSign : Expression.readSign [.plain [t.sign.mark]] = t.sign := by
    cases t.sign <;> rfl
  let place := ((start.after (gap text).1).after [t.sign.mark]).after t.lead.1
  obtain ⟨factor, hfactor, hpower⟩ := hdenotes place
  obtain ⟨e, he, hfound⟩ := hfactors t.sign (place.after (Piece.textOf parts)) ending hending
  refine ⟨(t.sign, factor) :: e, ?_, by simp [powers, hpower, ← hfound, Term.signed]⟩
  simp only [List.cons_append, List.nil_append, located, Expression.readFactors, hreadSign,
    Piece.text, Piece.textOf, List.append_nil]
  rw [hfactor]
  show (Expression.readFactors t.sign _).map _ = _
  rw [he]
  rfl

/-- What can stand behind terms: nothing more of an expression, and nothing that the last term would
take. -/
structure Ending (terms : List Term) (ending last : List Char) : Prop where
  ends : Ends ending
  reaches : (gap ending).2 = last
  stop : Expression.signAndFactor.read last = none
  free : last = [] ∨ ∀ t ∈ terms.getLast?, ∃ e ∈ t.exponent, ¬e.TakesBar

/-- A term takes nothing of terms that can stand behind it, nor of what stands behind these. -/
theorem precedes_terms (t : Term) (terms : List Term) (hchain : (t :: terms).IsChain Term.Apart)
    {ending last : List Char} (h : Ending (t :: terms) ending last) :
    t.Precedes (terms.flatMap Term.text ++ ending) := by
  cases terms with
  | nil =>
    refine ⟨h.ends, fun hnone => ?_, fun e he hbar => ?_⟩
    · rw [List.flatMap_nil, List.nil_append, h.reaches]
      obtain rfl | hfree := h.free
      · exact nofun
      · obtain ⟨e, he, -⟩ := hfree t rfl
        rw [hnone] at he
        contradiction
    · rw [List.flatMap_nil, List.nil_append, h.reaches]
      obtain rfl | hfree := h.free
      · rfl
      · obtain ⟨other, hother, hbars⟩ := hfree t rfl
        exact absurd (Option.mem_unique he hother ▸ hbar) hbars
  | cons u terms =>
    obtain ⟨hnext, -⟩ := List.isChain_cons_cons.mp hchain
    rw [List.flatMap_cons, List.append_assoc]
    have hgap := congrArg Prod.snd (gap_of_isSolid _ (isSolid_text u
      (terms.flatMap Term.text ++ ending)))
    refine ⟨?_, fun _ => ?_, fun e he hbar => ?_⟩
    · rw [Term.text, List.cons_append]
      cases u.sign <;> exact ends_cons (by decide) _
    · rw [hgap, Term.text]
      cases u.sign <;> simp [Sign.mark]
    · rw [hgap]
      exact (read_fraction_eq_none_iff u _).mpr (hnext e he hbar)

/-- What can stand behind terms can stand behind the last of them. -/
theorem Ending.tail {t : Term} {terms : List Term} {ending last : List Char}
    (h : Ending (t :: terms) ending last) : Ending terms ending last := by
  refine ⟨h.ends, h.reaches, h.stop, h.free.imp_right fun hfree u hu => hfree u ?_⟩
  rwa [List.getLast?_cons_of_ne_nil (by rintro rfl; contradiction)]

/-- Terms that can stand behind one another are read up to what stands behind them. -/
theorem reads_terms (terms : List Term) (hchain : terms.IsChain Term.Apart)
    {ending last : List Char} (h : Ending terms ending last) {text : List Char}
    (htext : (gap text).2 = (gap (terms.flatMap Term.text ++ ending)).2) :
    Reads text (terms.map Term.signed) last := by
  induction terms generalizing text with
  | nil => exact reads_nil (htext.trans h.reaches) h.stop
  | cons t terms ih =>
    have hprecedes := precedes_terms t terms hchain h
    rw [List.flatMap_cons, List.append_assoc, gap_of_isSolid _ (isSolid_text t _)] at htext
    exact Reads.cons t hprecedes (fun _ hmore => ih hchain.tail h.tail hmore) htext

/-- Behind a gap, the terms of a reading are read by a repetition. -/
theorem Reads.exists_spacedMany {text last : List Char} {found : List (Sign × Power)}
    (h : Reads text found last) : ∃ pieces rest,
    afterGap (Pattern.spacedMany Expression.signAndFactor).read text = some (pieces, rest) ∧
      (gap rest).2 = last ∧ ∀ sign start ending, (∀ name parts, .branch name parts ∉ ending) →
        ∃ e, Expression.readFactors sign (located start (pieces ++ ending)) = .ok e ∧
          powers e = found := by
  obtain ⟨pieces, rest, hrepeats, hlast, hfactors⟩ := h
  obtain hread | ⟨rfl, rfl, hread⟩ :=
    hrepeats.afterGap_spacedMany (p := Expression.signAndFactor) (by decide)
  · exact ⟨pieces, rest, hread, hlast, hfactors⟩
  · exact ⟨_, _, hread, (gap_gap rest).trans hlast, fun sign start ending hending =>
      hfactors sign _ ending hending⟩

/-- The pieces at the end of an expression, behind what is read of it. -/
def endPieces (rest : List Char) : List (Piece Part) :=
  [.plain (gap rest).1, .leaf .endOfText []]

/-- A text is an expression precisely when a factor, further ones with their signs and the end are
read from it, and their pieces denote powers. -/
theorem parse_eq_ok_iff (text : String) (e : Expression) :
    Expression.parse text = .ok e ↔ ∃ first middle pieces rest,
      afterGap Form.factor.read text.toList = some (first, middle) ∧
      afterGap (Pattern.spacedMany Expression.signAndFactor).read middle = some (pieces, rest) ∧
      (gap rest).2 = [] ∧ Expression.readFactors .times
        (located {} (first ++ (pieces ++ endPieces rest))) = .ok e := by
  have hskip (pieces : List (Piece Part)) :
      Expression.readFactors .times (located {} (.plain [] :: pieces)) =
        Expression.readFactors .times (located {} pieces) := by
    simp only [located, Expression.readFactors, Piece.text, Place.after_nil]
  constructor
  · intro h
    obtain ⟨parts, hparts, hfactors⟩ := Expression.exists_of_parse h
    obtain ⟨last, hread⟩ := (readBranch_eq_ok_iff _ _ _ _ _).mp hparts
    obtain ⟨begin, start, body, hbegin, hbody, rfl⟩ := Pattern.exists_of_read_spaced hread
    obtain ⟨rfl, rfl⟩ := Pattern.of_read_word hbegin
    obtain ⟨first, middle, others, hfirst, hothers, rfl⟩ :=
      (Pattern.afterGap_spaced_iff _ _).mp hbody
    obtain ⟨pieces, rest, ending, hpieces, hending, rfl⟩ :=
      (Pattern.afterGap_spaced_iff _ _).mp hothers
    obtain ⟨hrest, -, rfl⟩ := afterGap_endOfText_iff.mp hending
    exact ⟨first, middle, pieces, rest, hfirst, hpieces, hrest, (hskip _).symm.trans hfactors⟩
  · rintro ⟨first, middle, pieces, rest, hfirst, hpieces, hrest, hfactors⟩
    have hending := afterGap_endOfText_iff.mpr ⟨hrest, rfl, rfl⟩
    have hothers := (Pattern.afterGap_spaced_iff _ _).mpr ⟨_, _, _, hpieces, hending, rfl⟩
    have hbody := (Pattern.afterGap_spaced_iff _ _).mpr ⟨_, _, _, hfirst, hothers, rfl⟩
    have hread : Form.expression.read text.toList = some ([.branch .expression
        (.plain [] :: (first ++ (pieces ++ endPieces rest)))], []) := by
      refine Pattern.read_branch _ _ _ _ _ ?_
      have hbegin : (Pattern.word [] : Pattern Part).read text.toList =
          some ([.plain []], text.toList) := rfl
      rw [Pattern.read_spaced_eq, hbegin, Option.bind_some]
      exact congrArg (Option.map _) hbody
    have hparts := (hskip _).trans hfactors
    simp only [Expression.parse, readBranch, hread, bind, Except.bind, hparts, Except.mapError]

/-- The mark of a sign tells the sign. -/
theorem mark_injective : Function.Injective Sign.mark := by
  intro first second h
  cases first <;> cases second <;> simp_all [Sign.mark]

section

variable {terms : List Term} (hterms : terms ≠ []) (hchain : terms.IsChain Term.Apart)
  {ending last : List Char} (h : Ending terms ending last) {text : String}
  (htext : '*' :: text.toList = terms.flatMap Term.text ++ ending)

include hterms hchain h htext

/-- Terms that can stand behind one another are read from the beginning of an expression up to what
stands behind them. The first one does not show the sign of a product that it has. -/
theorem exists_read_terms : ∃ first middle pieces rest,
    afterGap Form.factor.read text.toList = some (first, middle) ∧
    afterGap (Pattern.spacedMany Expression.signAndFactor).read middle = some (pieces, rest) ∧
    (gap rest).2 = last ∧ ∀ start ending, (∀ name parts, .branch name parts ∉ ending) →
      ∃ e, Expression.readFactors .times (located start (first ++ (pieces ++ ending))) = .ok e ∧
        powers e = terms.map Term.signed := by
  obtain ⟨t, terms, rfl⟩ := List.exists_cons_of_ne_nil hterms
  rw [List.flatMap_cons, List.append_assoc, Term.text, List.cons_append, List.append_assoc,
    List.cons.injEq] at htext
  obtain ⟨hmark, htext⟩ := htext
  have hsign : .times = t.sign := mark_injective hmark
  obtain ⟨parts, middle, hread, hmiddle, hdenotes⟩ := read_body t (precedes_terms t terms hchain h)
  obtain ⟨pieces, rest, hpieces, hrest, hfactors⟩ :=
    (reads_terms terms hchain.tail h.tail hmiddle).exists_spacedMany
  have hfirst : afterGap Form.factor.read text.toList =
      some ([.plain t.lead.1, .branch .factor parts], middle) := by
    rw [htext, afterGap, gap_blanks t.lead (isSolid_body t _), hread]
    rfl
  refine ⟨_, middle, pieces, rest, hfirst, hpieces, hrest, fun start ending hending => ?_⟩
  obtain ⟨factor, hfactor, hpower⟩ := hdenotes (start.after t.lead.1)
  obtain ⟨e, he, hfound⟩ := hfactors .times
    ((start.after t.lead.1).after (Piece.textOf parts)) ending hending
  refine ⟨(.times, factor) :: e, ?_, by simp [powers, hpower, ← hfound, Term.signed, hsign]⟩
  simp only [List.cons_append, List.nil_append, located, Expression.readFactors, Piece.text,
    hfactor, he]
  rfl

/-- An expression that is read to its end has the powers of its terms. -/
theorem parse_terms (hlast : last = []) : ∃ e, Expression.parse text = .ok e ∧
    powers e = terms.map Term.signed := by
  obtain ⟨first, middle, pieces, rest, hfirst, hpieces, hrest, hfactors⟩ :=
    exists_read_terms hterms hchain h htext
  obtain ⟨e, he, hfound⟩ := hfactors {} (endPieces rest) (by simp [endPieces])
  exact ⟨e, (parse_eq_ok_iff text e).mpr
    ⟨first, middle, pieces, rest, hfirst, hpieces, hrest.trans hlast, he⟩, hfound⟩

/-- An expression that is not read to its end is refused. -/
theorem parse_stopped (hlast : last ≠ []) :
    ∃ complaint, Expression.parse text = .error (.parse complaint text) := by
  obtain ⟨first, middle, pieces, rest, hfirst, hpieces, hrest, -⟩ :=
    exists_read_terms hterms hchain h htext
  cases hparse : Expression.parse text with
  | error error =>
    obtain ⟨complaint, rfl⟩ := Expression.parse_error text error hparse
    exact ⟨complaint, rfl⟩
  | ok e =>
    obtain ⟨_, _, _, _, hfactor, hmore, hend, -⟩ := (parse_eq_ok_iff text e).mp hparse
    rw [hfirst, Option.some.injEq, Prod.mk.injEq] at hfactor
    obtain ⟨rfl, rfl⟩ := hfactor
    rw [hpieces, Option.some.injEq, Prod.mk.injEq] at hmore
    obtain ⟨rfl, rfl⟩ := hmore
    exact absurd (hrest.symm.trans hend) hlast

end

end UnitSystems.Spelled
