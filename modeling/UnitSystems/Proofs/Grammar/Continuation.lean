import UnitSystems.Proofs.Grammar.Padding

/-!
# Texts that go on

A pattern keeps a reading when it takes the same pieces of a longer text and leaves more of it.
Where the text goes on with a line break, patterns that stay on their line keep all their readings,
a repetition keeps the readings whose rounds are kept and after which no further round comes, and
line breaks are kept when they lead to something. A quoted text is kept before any text.
-/

namespace UnitSystems.Grammar

variable {ν : Type}

/-- A pattern keeps its readings when more text follows, if what they leave may stand before it.
Nothing but readings from where a gap has ended is asked for. -/
def Pattern.Keeps (p : Pattern ν) (follows : List Char → Prop) (more : List Char) : Prop :=
  ∀ text pieces rest, IsSolid text → p.read text = some (pieces, rest) → follows rest →
    p.read (text ++ more) = some (pieces, rest ++ more)

namespace Pattern

variable {p q : Pattern ν} {follows : List Char → Prop} {more : List Char}

/-- Less is kept before fewer texts. -/
theorem Keeps.mono {also : List Char → Prop} (h : p.Keeps follows more)
    (himp : ∀ rest, also rest → follows rest) : p.Keeps also more :=
  fun text pieces rest hsolid hread hrest => h text pieces rest hsolid hread (himp rest hrest)

/-- A branch keeps what its pattern keeps. -/
theorem Keeps.branch (h : p.Keeps follows more) (name : ν) :
    (Pattern.branch name p).Keeps follows more := by
  intro text pieces rest hsolid hread hrest
  obtain ⟨inner, hinner, rfl⟩ := exists_of_read_branch hread
  exact read_branch name p _ _ _ (h text inner rest hsolid hinner hrest)

/-- Patterns that do not pass over the end of their line, whatever stands there: nothing in them
takes a line break or looks beyond it. -/
def staysOnLine : Pattern ν → Bool
  | .spaced p q => p.staysOnLine && q.staysOnLine
  | .optional p | .branch _ p => p.staysOnLine
  | p => p.refuses '\n' && p.refuses '\r'

section

variable {c : Char} (hc : isLineBreak c = true)

include hc

/-- To a pattern that stays on its line, a line break is the end of the text. -/
theorem read_append_lineBreak (p : Pattern ν) (hp : p.staysOnLine = true) (text more : List Char) :
    p.read (text ++ c :: more) = (p.read text).map (extend (c :: more)) := by
  have hrefuses (p : Pattern ν) (hp : (p.refuses '\n' && p.refuses '\r') = true)
      (text : List Char) : p.read (text ++ c :: more) = (p.read text).map (extend (c :: more)) := by
    simp only [isLineBreak, Bool.or_eq_true, beq_iff_eq] at hc
    rw [Bool.and_eq_true] at hp
    rcases hc with rfl | rfl
    · exact p.read_append_refused _ hp.1 text more
    · exact p.read_append_refused _ hp.2 text more
  induction p generalizing text with
  | spaced p q ihp ihq =>
    simp only [staysOnLine, Bool.and_eq_true] at hp
    simp only [read_spaced_eq, ihp hp.1]
    cases p.read text with
    | none => rfl
    | some reading =>
      simp only [Option.map_some, Option.bind_some, extend, afterGap,
        gap_append_lineBreak c hc, ihq hp.2, Option.map_map]
      rfl
  | optional p ih =>
    simp only [read, ih hp]
    cases p.read text <;> rfl
  | branch name p ih =>
    simp only [read, ih hp, Option.map_map]
    rfl
  | one | run | word | finish | notAhead | either | joined | many | spacedMany | leaf =>
    exact hrefuses _ hp text

/-- Patterns that stay on their line keep all readings. -/
theorem keeps_of_staysOnLine (hp : p.staysOnLine = true) (more : List Char) :
    p.Keeps (fun _ => True) (c :: more) := by
  intro text pieces rest _ hread _
  rw [read_append_lineBreak hc p hp, hread]
  rfl

/-- What is read after a gap is kept when it is kept from where the gap ends. -/
theorem Keeps.afterGap (h : p.Keeps follows (c :: more)) {text rest : List Char}
    {pieces : List (Piece ν)} (hread : afterGap p.read text = some (pieces, rest))
    (hrest : follows rest) :
    Grammar.afterGap p.read (text ++ c :: more) = some (pieces, rest ++ c :: more) := by
  obtain ⟨inner, hinner, rfl⟩ := exists_of_afterGap hread
  rw [Grammar.afterGap, gap_append_lineBreak c hc, h _ _ _ (isSolid_gap text) hinner hrest,
    Option.map_some]

/-- A spaced pattern keeps what both its members keep. -/
theorem Keeps.spaced (hp : p.Keeps (fun _ => True) (c :: more)) (hq : q.Keeps follows (c :: more)) :
    (Pattern.spaced p q).Keeps follows (c :: more) := by
  intro text pieces rest hsolid hread hrest
  obtain ⟨first, middle, second, hfirst, hsecond, rfl⟩ := exists_of_read_spaced hread
  rw [read_spaced_eq, hp text first middle hsolid hfirst trivial, Option.bind_some,
    hq.afterGap hc hsecond hrest, Option.map_some]

/-- A repetition keeps a reading when each round is kept that is the last one or has another after
it, and no round can be read after the last one. -/
theorem read_spacedMany_append (hp : p.advances = true) {text rest : List Char}
    {pieces : List (Piece ν)} (hsolid : IsSolid text)
    (hround : p.Keeps (fun middle => middle = rest ∨ (p.read (gap middle).2).isSome = true)
      (c :: more))
    (hstop : p.read (gap rest).2 = none → p.read ((gap rest).2 ++ c :: more) = none)
    (h : (spacedMany p).read text = some (pieces, rest)) :
    (spacedMany p).read (text ++ c :: more) = some (pieces, rest ++ c :: more) := by
  rw [p.read_spacedMany_iff hp] at h ⊢
  obtain ⟨hnone, rfl, rfl⟩ | ⟨first, middle, others, hfirst, hrepeats, rfl⟩ := h
  · rw [gap_of_isSolid _ hsolid] at hstop
    exact .inl ⟨hstop hnone, rfl, rfl⟩
  · have hnext (middle : List Char) (h : (Grammar.afterGap p.read middle).isSome = true) :
        (p.read (gap middle).2).isSome = true := by
      rwa [Grammar.afterGap, Option.isSome_map] at h
    have hmiddle : middle = rest ∨ (p.read (gap middle).2).isSome = true := by
      cases hrepeats with
      | stop => exact .inl rfl
      | round hnext' => exact .inr (hnext middle (Option.isSome_of_eq_some hnext'))
    have hlast := hrepeats.read_eq_none
    refine .inr ⟨first, middle ++ c :: more, others, hround text first middle hsolid hfirst hmiddle,
      hrepeats.append (c :: more) (fun text pieces middle hread hmiddle => ?_) ?_, rfl⟩
    · exact hround.afterGap hc hread (hmiddle.imp_right (hnext middle))
    · rw [Grammar.afterGap, Option.map_eq_none_iff] at hlast ⊢
      rw [gap_append_lineBreak c hc]
      exact hstop hlast

end

end Pattern

section

variable {c : Char} (hc : isLineBreak c = true)

include hc

/-- Line breaks are kept when something follows them that is no gap. -/
theorem keeps_breaks (more : List Char) :
    (Pattern.spacedMany Form.lineBreak).Keeps (fun rest => (gap rest).2 ≠ []) (c :: more) := by
  intro text pieces rest hsolid hread hrest
  refine Pattern.read_spacedMany_append hc (by decide) hsolid ?_ (fun hnone => ?_) hread
  · intro text pieces middle _ hread hmiddle
    refine read_lineBreak_append hread ?_ _
    rintro rfl
    rcases hmiddle with rfl | hsome
    · exact hrest rfl
    · contradiction
  · obtain ⟨d, left, hleft⟩ := List.exists_cons_of_ne_nil hrest
    rw [hleft] at hnone ⊢
    refine read_lineBreak_eq_none d _ ?_
    by_contra hbreak
    have hsome := isSome_read_lineBreak d (by simpa using hbreak) left
    rw [hnone] at hsome
    contradiction

/-- One or more line breaks are kept when something follows them that is no gap. -/
theorem keeps_lineBreaks (more : List Char) :
    Form.lineBreaks.Keeps (fun rest => (gap rest).2 ≠ []) (c :: more) := by
  intro text pieces rest hsolid hread hrest
  obtain ⟨first, middle, second, hfirst, hsecond, rfl⟩ := Pattern.exists_of_read_spaced hread
  obtain ⟨inner, hinner, -⟩ := exists_of_afterGap hsecond
  have hmiddle : middle ≠ [] := by
    rintro rfl
    have hnil : ([], []) = (inner, rest) := Option.some.inj hinner
    obtain ⟨-, rfl⟩ := Prod.mk.inj hnil
    exact hrest rfl
  rw [Form.lineBreaks, Pattern.read_spaced_eq, read_lineBreak_append hfirst hmiddle,
    Option.bind_some, (keeps_breaks hc more).afterGap hc hsecond hrest, Option.map_some]

/-- A pattern that takes something is kept after a pattern that is kept before something. -/
theorem Pattern.Keeps.spaced_of_advances {p q : Pattern ν} {follows : List Char → Prop}
    {more : List Char} (hp : p.Keeps (fun rest => (gap rest).2 ≠ []) (c :: more))
    (hadvances : q.advances = true) (hq : q.Keeps follows (c :: more)) :
    (Pattern.spaced p q).Keeps follows (c :: more) := by
  intro text pieces rest hsolid hread hrest
  obtain ⟨first, middle, second, hfirst, hsecond, rfl⟩ := Pattern.exists_of_read_spaced hread
  obtain ⟨inner, hinner, -⟩ := exists_of_afterGap hsecond
  have hmiddle : (gap middle).2 ≠ [] := by
    intro hnil
    rw [hnil] at hinner
    exact absurd (q.length_of_advances hadvances _ _ _ hinner) (Nat.not_lt_zero _)
  rw [Pattern.read_spaced_eq, hp text first middle hsolid hfirst hmiddle, Option.bind_some,
    hq.afterGap hc hsecond hrest, Option.map_some]

end

/-- What a run leaves is left of a longer text too, and more. -/
theorem span_append (isMember : Char → Bool) (text more : List Char)
    (h : text.dropWhile isMember ≠ []) :
    (text ++ more).takeWhile isMember = text.takeWhile isMember ∧
      (text ++ more).dropWhile isMember = text.dropWhile isMember ++ more := by
  induction text with
  | nil => contradiction
  | cons c text ih =>
    cases hc : isMember c with
    | true =>
      rw [List.dropWhile_cons_of_pos hc] at h
      simp [hc, ih h]
    | false => simp [hc]

/-- A round of a quoted text is a backslash with the character after it, or plain characters. -/
theorem read_quotedRound_eq (text : List Char) : quotedRound.read text =
    match text with
    | '\\' :: c :: rest => some ([.plain ['\\'], .plain [c]], rest)
    | c :: rest =>
      if isPlainInQuotes c then
        some ([.plain [c], .plain (rest.takeWhile isPlainInQuotes)], rest.dropWhile isPlainInQuotes)
      else none
    | [] => none := by
  have hslash : isPlainInQuotes '\\' = false := by decide
  cases text with
  | nil => rfl
  | cons c text =>
    by_cases hc : '\\' = c
    · subst hc
      cases text with
      | nil => simp [quotedRound, Form.text, Form.someOf, Pattern.read, List.isPrefixOf?, hslash]
      | cons d text => rfl
    · have hnone :
          (Pattern.joined (Form.text "\\") (.one fun _ => true)).read (c :: text) = none := by
        simp [Form.text, Pattern.read, List.isPrefixOf?, hc]
      rw [quotedRound, Pattern.read_either_right _ _ _ hnone]
      cases hplain : isPlainInQuotes c <;> simp [Form.someOf, Pattern.read, hplain, Ne.symm hc]

/-- A round of a quoted text is read just so before any text that begins like the one behind it. -/
theorem read_quotedRound_of_head {text rest : List Char} {pieces : List (Piece Part)}
    (h : quotedRound.read text = some (pieces, rest)) (other : List Char)
    (hother : other.head? = rest.head?) :
    quotedRound.read (Piece.textOf pieces ++ other) = some (pieces, other) := by
  rw [read_quotedRound_eq] at h
  split at h
  · obtain ⟨rfl, rfl⟩ := Prod.mk.inj (Option.some.inj h)
    rfl
  · next c left hslash =>
    split at h
    · next hplain =>
      obtain ⟨rfl, rfl⟩ := Prod.mk.inj (Option.some.inj h)
      have hc : c ≠ '\\' := by
        rintro rfl
        contradiction
      have htake : ∀ d ∈ left.takeWhile isPlainInQuotes, isPlainInQuotes d = true := fun d hd =>
        List.mem_takeWhile_imp hd
      have hends : other.takeWhile isPlainInQuotes = [] ∧
          other.dropWhile isPlainInQuotes = other := by
        cases other with
        | nil => exact ⟨rfl, rfl⟩
        | cons d other =>
          have hd := head_dropWhile isPlainInQuotes left d hother.symm
          simp [hd]
      have htext : Piece.textOf ([.plain [c], .plain (left.takeWhile isPlainInQuotes)] :
          List (Piece Part)) ++ other = c :: (left.takeWhile isPlainInQuotes ++ other) := by
        simp [Piece.textOf, Piece.text]
      rw [htext, read_quotedRound_eq]
      simp [hc, hplain, List.takeWhile_append_of_pos htake, List.dropWhile_append_of_pos htake,
        hends]
    · contradiction
  · contradiction

/-- The rounds of a quoted text are read just so before any other closing quote. -/
theorem repeats_quotedRound {text rest : List Char} {pieces : List (Piece Part)}
    (h : Repeats quotedRound.read text pieces rest) (hrest : rest.head? = some '"')
    (other : List Char) (hother : other.head? = some '"') :
    Repeats quotedRound.read (Piece.textOf pieces ++ other) pieces other := by
  induction h with
  | stop =>
    obtain ⟨more, rfl⟩ := List.head?_eq_some_iff.mp hother
    exact .stop (read_quotedRound_eq _)
  | @round text middle rest first more hround hmore ih =>
    have hmiddle := hmore.lossless quotedRound.lossless
    have hhead : (Piece.textOf more ++ other).head? = middle.head? := by
      rw [← hmiddle, List.head?_append, List.head?_append, hother, hrest]
    rw [Piece.textOf_append, List.append_assoc]
    exact .round (read_quotedRound_of_head hround _ hhead) (ih hrest)

/-- A quoted text is read just so before any other text. -/
theorem read_string_of_read {text rest : List Char} {pieces : List (Piece Part)}
    (h : Form.string.read text = some (pieces, rest)) (other : List Char) :
    Form.string.read (Piece.textOf pieces ++ other) = some (pieces, other) := by
  obtain ⟨inside, hinside, rfl⟩ := Pattern.exists_of_read_branch h
  obtain ⟨opening, middle, second, hopening, hsecond, rfl⟩ := Pattern.exists_of_read_joined hinside
  obtain ⟨inner, after, closing, hinner, hclosing, rfl⟩ := Pattern.exists_of_read_joined hsecond
  obtain ⟨-, rfl⟩ := Pattern.of_read_word hopening
  obtain ⟨rfl, rfl⟩ := Pattern.of_read_word hclosing
  obtain ⟨parts, hparts, rfl⟩ := Pattern.exists_of_read_leaf hinner
  have hrounds := repeats_quotedRound ((quotedRound.read_many_iff (by decide)).mp hparts) rfl
    ('"' :: other) rfl
  have hinner := Pattern.read_leaf .stringInner _ _ (Piece.textOf parts) _ parts rfl
    ((quotedRound.read_many_iff (by decide)).mpr hrounds)
  have htext : Piece.textOf ([.branch .string
      ([.plain "\"".toList] ++ ([.leaf .stringInner (Piece.textOf parts)] ++
        [.plain "\"".toList]))] : List (Piece Part)) ++ other =
        '"' :: (Piece.textOf parts ++ '"' :: other) := by
    simp [Piece.textOf, Piece.text]
  rw [htext]
  exact Pattern.read_branch _ _ _ _ _ (Pattern.read_joined _ _ _ _ _ [.plain ['"']] _ rfl
    (Pattern.read_joined _ _ _ _ _ _ [.plain ['"']] hinner rfl))

/-- A quoted text ends at its closing quote, whatever stands after it. -/
theorem keeps_string (more : List Char) : Form.string.Keeps (fun _ => True) more := by
  intro text pieces rest _ hread _
  rw [← Form.string.lossless _ _ _ hread, List.append_assoc]
  exact read_string_of_read hread (rest ++ more)

end UnitSystems.Grammar
