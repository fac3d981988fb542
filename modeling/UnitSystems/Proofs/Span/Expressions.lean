import UnitSystems.Proofs.Expression.Value
import UnitSystems.Proofs.Expression.Written
import UnitSystems.Proofs.Span.Definitions

/-!
# Spans of expressions

The span of a factor covers its part of the text, which begins with its base. The spans of an
expression follow one another. A complaint about an expression marks one of its numbers, one of its
factors or the place where reading failed.
-/

namespace UnitSystems

open Grammar

/-- Characters that a base would go on with. -/
def Base.goesOn : Base → Char → Bool
  | one => isDigit
  | unit _ => isNameChar

namespace Expression

/-- An expression whose factors have sound spans that begin with their bases and follow one
another. -/
structure IsMarkedIn (e : Expression) (text : String) : Prop where
  sound : ∀ term ∈ e, term.2.span.IsSound text
  begins : ∀ term ∈ e,
    term.2.span.BeginsWith term.2.base.written term.2.base.goesOn text.toList
  ordered : e.Pairwise fun first second => first.2.span.stop ≤ second.2.span.start

/-- A base is read as its piece and goes no further. -/
theorem exists_of_read_base {text rest : List Char} {pieces : List (Piece Part)}
    (h : (Pattern.either Form.identifier Form.one).read text = some (pieces, rest)) :
    ∃ base : Base, pieces = [base.piece] ∧ ∀ c ∈ rest.head?, base.goesOn c = false := by
  rcases Pattern.of_read_either h with hname | hone
  · obtain ⟨c, more, -, -, rfl, -, hrest⟩ := exists_of_read_identifier hname
    exact ⟨.unit (String.ofList (c :: more)), by rw [Base.piece, String.toList_ofList], hrest⟩
  · obtain ⟨inner, hinner, rfl⟩ := Pattern.exists_of_read_leaf hone
    obtain ⟨word, start, ahead, hword, hahead, rfl⟩ := Pattern.exists_of_read_joined hinner
    obtain ⟨-, rfl⟩ := Pattern.of_read_word hword
    obtain ⟨hends, rfl, rfl⟩ := (read_notAhead_one_iff _ _ _ _).mp hahead
    exact ⟨.one, rfl, hends⟩

/-- The piece of a base sets the base. -/
theorem readPower_piece (base found : Base) (ratio : Int32 × Int32) (place : Place)
    (rest : List (Place × Piece Part)) :
    readPower base ratio ((place, found.piece) :: rest) = readPower found ratio rest := by
  cases found with
  | one => rfl
  | unit name => rw [Base.piece, readPower, String.ofList_toList]

/-- The piece of a base was read from its written form. -/
theorem text_piece (base : Base) : base.piece.text = base.written := by
  cases base <;> rfl

/-- Where no further leaf stands, the base stays. -/
theorem base_readPower {base : Base} {ratio : Int32 × Int32}
    {entries : List (Place × Piece Part)} {result : Base × Int32 × Int32}
    (hentries : ∀ entry ∈ entries, ∀ name text, entry.2 ≠ .leaf name text)
    (h : readPower base ratio entries = .ok result) : result.1 = base := by
  fun_induction readPower base ratio entries with
  | case1 base ratio =>
    obtain rfl := Except.ok.inj h
    rfl
  | case2 base ratio start name rest ih =>
    exact absurd rfl (hentries _ List.mem_cons_self .identifier name)
  | case3 base ratio start text rest ih =>
    exact absurd rfl (hentries _ List.mem_cons_self .one text)
  | case4 base ratio start parts rest next hnext ih =>
    exact ih (fun e he => hentries e (List.mem_cons_of_mem _ he)) h
  | case5 => contradiction
  | case6 base ratio entry rest _ _ _ ih =>
    exact ih (fun e he => hentries e (List.mem_cons_of_mem _ he)) h

/-- Behind the base of a factor stands no further leaf. -/
theorem noLeaf_of_read_power {text rest : List Char} {pieces : List (Piece Part)}
    (h : afterGap (Pattern.optional (.spaced (Form.text "^") Form.exponent)).read text =
      some (pieces, rest)) (place : Place) :
    ∀ entry ∈ located place pieces, ∀ name text, entry.2 ≠ .leaf name text := by
  obtain ⟨inner, hinner, rfl⟩ := exists_of_afterGap h
  rcases Pattern.of_read_optional hinner with hpower | ⟨rfl, -⟩
  · obtain ⟨sign, middle, second, hsign, hsecond, rfl⟩ := Pattern.exists_of_read_spaced hpower
    obtain ⟨-, rfl⟩ := Pattern.of_read_word hsign
    obtain ⟨branch, hbranch, rfl⟩ := exists_of_afterGap hsecond
    obtain ⟨parts, -, rfl⟩ := Pattern.exists_of_read_branch hbranch
    simp [located]
  · simp [located]

/-- A factor that was read in a text has a sound span that begins with its base. -/
theorem isMarked_of_read_factor {text : String} (before : List Char) {start rest : List Char}
    {inside : List (Piece Part)} {factor : Factor} (htext : text.toList = before ++ start)
    (h : Form.factor.read start = some ([.branch .factor inside], rest))
    (hfactor : readFactor (Place.after {} before) inside = .ok factor) :
    factor.span.IsSound text ∧
      factor.span.BeginsWith factor.base.written factor.base.goesOn text.toList := by
  obtain ⟨⟨base, numerator, denominator⟩, hpower, rfl⟩ := (map_eq_ok_iff _ _ _).mp hfactor
  obtain ⟨inner, hinner, heq⟩ := Pattern.exists_of_read_branch h
  cases heq
  have hstart := Pattern.lossless _ _ _ _ hinner
  refine ⟨StandsAt.isSound ⟨before, rest, by rw [htext, ← hstart], rfl⟩, ?_⟩
  obtain ⟨first, middle, tail, hfirst, htail, rfl⟩ := Pattern.exists_of_read_spaced hinner
  have hmiddle := (Pattern.lossless _).afterGap _ _ _ htail
  obtain ⟨found, rfl, hends⟩ := exists_of_read_base hfirst
  have hbase : base = found := by
    rw [List.singleton_append, located, readPower_piece] at hpower
    exact base_readPower (noLeaf_of_read_power htail _) hpower
  have htextOf : Piece.textOf ([found.piece] ++ tail) = base.written ++ Piece.textOf tail := by
    rw [Piece.textOf_append, Piece.textOf, Piece.textOf, List.append_nil, text_piece, hbase]
  have hspan := beginsWith_covering base.goesOn before base.written (Piece.textOf tail) rest
    (by rwa [hmiddle, hbase])
  rw [← htextOf, hstart, ← htext] at hspan
  exact hspan

/-- The factors among pieces that begin at a place were read in a text at their places. -/
def HoldsFactors (text : List Char) (start : Place) (pieces : List (Piece Part)) : Prop :=
  ∀ place inside, (place, .branch .factor inside) ∈ located start pieces →
    ∃ before below rest, text = before ++ below ∧ place = Place.after {} before ∧
      Form.factor.read below = some ([.branch .factor inside], rest)

/-- The factors of two runs of pieces are those of both. -/
theorem HoldsFactors.append {text : List Char} {start : Place} {first second : List (Piece Part)}
    (hfirst : HoldsFactors text start first)
    (hsecond : HoldsFactors text (start.after (Piece.textOf first)) second) :
    HoldsFactors text start (first ++ second) := by
  intro place inside hmem
  rw [located_append, List.mem_append] at hmem
  exact hmem.elim (hfirst place inside) (hsecond place inside)

section

variable (before : List Char) {text rest : List Char} {pieces : List (Piece Part)}

/-- A factor behind a gap was read at its place. -/
theorem holdsFactors_of_afterGap (h : afterGap Form.factor.read text = some (pieces, rest)) :
    HoldsFactors (before ++ text) (Place.after {} before) pieces := by
  obtain ⟨inner, hinner, rfl⟩ := exists_of_afterGap h
  obtain ⟨found, -, rfl⟩ := Pattern.exists_of_read_branch hinner
  intro place inside hmem
  simp only [located, Piece.text, List.mem_cons, Prod.mk.injEq, reduceCtorEq, and_false,
    Piece.branch.injEq, true_and, List.not_mem_nil, or_false, false_or] at hmem
  obtain ⟨rfl, rfl⟩ := hmem
  refine ⟨before ++ (gap text).1, (gap text).2, rest, ?_, (Place.after_append _ _ _).symm, hinner⟩
  rw [List.append_assoc, gap_append]

/-- The factor behind a sign was read at its place. -/
theorem holdsFactors_of_term (h : afterGap signAndFactor.read text = some (pieces, rest)) :
    HoldsFactors (before ++ text) (Place.after {} before) pieces := by
  obtain ⟨sign, middle, factor, hsign, hfactor, rfl⟩ := (Pattern.afterGap_spaced_iff _ _).mp h
  have htext := (Pattern.lossless _).afterGap _ _ _ hsign
  refine HoldsFactors.append ?_ ?_
  · obtain ⟨inner, hinner, rfl⟩ := exists_of_afterGap hsign
    obtain ⟨found, -, rfl⟩ := Pattern.exists_of_read_branch hinner
    intro place inside hmem
    simp [located] at hmem
  · rw [← Place.after_append, ← htext, ← List.append_assoc]
    exact holdsFactors_of_afterGap _ hfactor

/-- The factors of a repetition were read at their places. -/
theorem holdsFactors_of_repeats (h : Repeats (afterGap signAndFactor.read) text pieces rest) :
    HoldsFactors (before ++ text) (Place.after {} before) pieces := by
  induction h generalizing before with
  | stop => exact fun place inside hmem => absurd hmem List.not_mem_nil
  | @round text middle rest first more hround hmore ih =>
    have htext := (Pattern.lossless _).afterGap _ _ _ hround
    refine (holdsFactors_of_term before hround).append ?_
    rw [← Place.after_append, ← htext, ← List.append_assoc]
    exact ih _

end

/-- The factors of an expression were read in its text at their places. -/
theorem holdsFactors_of_readBranch {text : List Char} {source : String}
    {parts : List (Piece Part)} (h : readBranch Form.expression text source = .ok parts) :
    HoldsFactors text {} parts := by
  have hplain (start : Place) (blanks : List Char) (more : List (Piece Part))
      (hmore : HoldsFactors text (start.after blanks) more) :
      HoldsFactors text start (.plain blanks :: more) := by
    intro place inside hmem
    rw [located, List.mem_cons] at hmem
    exact hmem.elim (fun heq => by simp at heq) (hmore place inside)
  obtain ⟨rest, hread⟩ := (readBranch_eq_ok_iff _ _ _ _ _).mp h
  obtain ⟨begin, middle, body, hbegin, hbody, rfl⟩ := Pattern.exists_of_read_spaced hread
  obtain ⟨rfl, rfl⟩ := Pattern.of_read_word hbegin
  obtain ⟨first, afterFirst, others, hfirst, hothers, rfl⟩ :=
    (Pattern.afterGap_spaced_iff _ _).mp hbody
  obtain ⟨terms, last, ending, hterms, hending, rfl⟩ := (Pattern.afterGap_spaced_iff _ _).mp hothers
  obtain ⟨-, -, rfl⟩ := afterGap_endOfText_iff.mp hending
  have hmiddle := (Pattern.lossless _).afterGap _ _ _ hfirst
  refine hplain _ _ _ ((holdsFactors_of_afterGap [] hfirst).append (.append ?_ ?_))
  · obtain ⟨-, rfl, -⟩ | ⟨-, hrepeats⟩ :=
      (Pattern.afterGap_spacedMany_iff (p := signAndFactor) (by decide)).mp hterms
    · exact hplain _ _ _ fun place inside hmem => absurd hmem List.not_mem_nil
    · rw [List.nil_append, ← hmiddle]
      exact holdsFactors_of_repeats _ hrepeats
  · intro place inside hmem
    simp [located] at hmem

/-- The span of a factor covers its part of the text. -/
theorem span_readFactor {place : Place} {inside : List (Piece Part)} {factor : Factor}
    (h : readFactor place inside = .ok factor) :
    factor.span = Span.covering place (Piece.textOf inside) := by
  obtain ⟨_, -, rfl⟩ := (map_eq_ok_iff _ _ _).mp h
  rfl

/-- The spans of factors follow one another as their pieces do. -/
theorem pairwise_readFactors {entries : List (Place × Piece Part)}
    (hentries : entries.Pairwise fun first second =>
      (first.1.after first.2.text).offset ≤ second.1.offset)
    {sign : Sign} {e : Expression} (h : readFactors sign entries = .ok e) :
    e.Pairwise fun first second => first.2.span.stop ≤ second.2.span.start := by
  fun_induction readFactors sign entries generalizing e with
  | case1 sign =>
    obtain rfl := Except.ok.inj h
    exact .nil
  | case2 sign start parts rest ih => exact ih (List.pairwise_cons.mp hentries).2 h
  | case3 sign start parts rest factor hfactor ih =>
    obtain ⟨others, hothers, rfl⟩ := (map_eq_ok_iff _ _ _).mp h
    obtain ⟨hlater, hrest⟩ := List.pairwise_cons.mp hentries
    refine List.pairwise_cons.mpr ⟨?_, ih hrest hothers⟩
    refine forall_readFactors (fun other => factor.span.stop ≤ other.span.start) rest
      (fun place inside hmem other hother => ?_) sign others hothers
    rw [span_readFactor hfactor, span_readFactor hother]
    exact hlater _ hmem
  | case4 => contradiction
  | case5 sign entry rest _ _ ih => exact ih (List.pairwise_cons.mp hentries).2 h

/-- The factors of an expression have sound spans that begin with their bases and follow one
another. -/
theorem isMarkedIn_of_parse {text : String} {e : Expression} (h : parse text = .ok e) :
    e.IsMarkedIn text := by
  obtain ⟨parts, hparts, hfactors⟩ := exists_of_parse h
  have hmarked : ∀ term ∈ e, term.2.span.IsSound text ∧
      term.2.span.BeginsWith term.2.base.written term.2.base.goesOn text.toList := by
    refine forall_readFactors (fun factor => factor.span.IsSound text ∧
      factor.span.BeginsWith factor.base.written factor.base.goesOn text.toList) _
      (fun place inside hmem factor hfactor => ?_) .times e hfactors
    obtain ⟨before, below, rest, htext, rfl, hfactorRead⟩ :=
      holdsFactors_of_readBranch hparts place inside hmem
    exact isMarked_of_read_factor before htext hfactorRead hfactor
  exact ⟨fun term hterm => (hmarked term hterm).1, fun term hterm => (hmarked term hterm).2,
    pairwise_readFactors (pairwise_located {} parts).2 hfactors⟩

section

variable {text : String} {complaint : Complaint}

/-- A number out of range is marked as a whole. -/
theorem span_of_numberAt_error {start : Place} {digits : List Char}
    (h : numberAt start digits = .error complaint) :
    complaint.span = Span.covering start digits := by
  unfold numberAt at h
  split at h
  · contradiction
  · obtain rfl := Except.error.inj h
    rfl

/-- A complaint about an exponent marks a part of the text. -/
theorem isSound_of_readRatio {ratio : Int32 × Int32} {entries : List (Place × Piece Part)}
    (hentries : ∀ entry ∈ entries, StandsAt text.toList entry.1 entry.2.text)
    (h : readRatio ratio entries = .error complaint) : complaint.span.IsSound text := by
  fun_induction readRatio ratio entries with
  | case1 => contradiction
  | case2 ratio start digits rest numerator hnumber ih =>
    exact ih (List.forall_mem_cons.mp hentries).2 h
  | case3 ratio start digits rest found hnumber =>
    obtain rfl := Except.error.inj h
    rw [span_of_numberAt_error hnumber]
    exact (List.forall_mem_cons.mp hentries).1.isSound
  | case4 ratio start digits rest denominator hnumber ih =>
    exact ih (List.forall_mem_cons.mp hentries).2 h
  | case5 ratio start digits rest found hnumber =>
    obtain rfl := Except.error.inj h
    rw [span_of_numberAt_error hnumber]
    exact (List.forall_mem_cons.mp hentries).1.isSound
  | case6 ratio entry rest _ _ ih => exact ih (List.forall_mem_cons.mp hentries).2 h

/-- A complaint about a power marks a part of the text. -/
theorem isSound_of_readPower {base : Base} {ratio : Int32 × Int32}
    {entries : List (Place × Piece Part)}
    (hentries : ∀ entry ∈ entries, StandsAt text.toList entry.1 entry.2.text)
    (h : readPower base ratio entries = .error complaint) : complaint.span.IsSound text := by
  fun_induction readPower base ratio entries with
  | case1 => contradiction
  | case2 base ratio start name rest ih => exact ih (List.forall_mem_cons.mp hentries).2 h
  | case3 base ratio start text rest ih => exact ih (List.forall_mem_cons.mp hentries).2 h
  | case4 base ratio start parts rest next hnext ih =>
    exact ih (List.forall_mem_cons.mp hentries).2 h
  | case5 base ratio start parts rest found hexponent =>
    obtain rfl := Except.error.inj h
    exact isSound_of_readRatio (List.forall_mem_cons.mp hentries).1.of_mem_located hexponent
  | case6 base ratio entry rest _ _ _ ih => exact ih (List.forall_mem_cons.mp hentries).2 h

/-- A complaint about factors marks a part of the text. -/
theorem isSound_of_readFactors {sign : Sign} {entries : List (Place × Piece Part)}
    (hentries : ∀ entry ∈ entries, StandsAt text.toList entry.1 entry.2.text)
    (h : readFactors sign entries = .error complaint) : complaint.span.IsSound text := by
  fun_induction readFactors sign entries with
  | case1 => contradiction
  | case2 sign start parts rest ih => exact ih (List.forall_mem_cons.mp hentries).2 h
  | case3 sign start parts rest factor hfactor ih =>
    exact ih (List.forall_mem_cons.mp hentries).2 ((map_eq_error_iff _ _ _).mp h)
  | case4 sign start parts rest found hfactor =>
    obtain rfl := Except.error.inj h
    exact isSound_of_readPower (List.forall_mem_cons.mp hentries).1.of_mem_located
      ((map_eq_error_iff _ _ _).mp hfactor)
  | case5 sign entry rest _ _ ih => exact ih (List.forall_mem_cons.mp hentries).2 h

/-- A complaint about an expression marks a part of its text. -/
theorem isSound_of_parse_error {shown : String}
    (h : parse text = .error (.parse complaint shown)) :
    shown = text ∧ complaint.span.IsSound text := by
  unfold parse at h
  simp only [Except.mapError] at h
  split at h
  · next found hfound =>
    obtain ⟨rfl, rfl⟩ := Error.parse.inj (Except.error.inj h)
    refine ⟨rfl, ?_⟩
    rcases (bind_eq_error_iff _ _ _).mp hfound with hparts | ⟨parts, hparts, hfactors⟩
    · exact isSound_of_readBranch hparts
    · exact isSound_of_readFactors (standsAt_of_readBranch hparts).of_mem_located hfactors
  · contradiction

end

section

variable {s : Specification} {name : String} {span : Span}

/-- An error about dimensions is none about an unknown unit. -/
theorem mapError_dimension_ne {α : Type} (x : Except DimensionError α) :
    x.mapError NoValue.dimension ≠ .error (.unknownUnit name span) := by
  cases x <;> simp [Except.mapError]

/-- An unknown unit is marked with its factor. -/
theorem span_of_baseDimension_error {factor : Factor}
    (h : baseDimension s factor = .error (.unknownUnit name span)) : span = factor.span := by
  unfold baseDimension at h
  split at h
  · contradiction
  split at h
  · contradiction
  split at h
  · exact (NoValue.unknownUnit.inj (Except.error.inj h)).2.symm
  · exact absurd h (mapError_dimension_ne _)

/-- A factor without a contribution is the one that is marked. -/
theorem span_of_contribution_error {factor : Factor}
    (h : contribution s factor = .error (.unknownUnit name span)) : span = factor.span := by
  rcases (bind_eq_error_iff _ _ _).mp h with hbase | ⟨base, -, hbase⟩
  · exact span_of_baseDimension_error hbase
  rcases (bind_eq_error_iff _ _ _).mp hbase with hpower | ⟨raised, -, hroot⟩
  · exact absurd hpower (mapError_dimension_ne _)
  · exact absurd hroot (mapError_dimension_ne _)

/-- Of factors with an unknown unit, one is marked. -/
theorem exists_of_evaluateFrom_error {total : Dimension} {e : Expression}
    (h : evaluateFrom s total e = .error (.unknownUnit name span)) :
    ∃ term ∈ e, span = term.2.span := by
  induction e generalizing total with
  | nil => contradiction
  | cons term e ih =>
    obtain ⟨sign, factor⟩ := term
    rcases (bind_eq_error_iff _ _ _).mp h with hcontribution | ⟨value, -, hmore⟩
    · exact ⟨_, List.mem_cons_self, span_of_contribution_error hcontribution⟩
    rcases (bind_eq_error_iff _ _ _).mp hmore with hjoin | ⟨next, -, hrest⟩
    · cases sign <;> exact absurd hjoin (mapError_dimension_ne _)
    · obtain ⟨other, hother, hspan⟩ := ih hrest
      exact ⟨other, List.mem_cons_of_mem _ hother, hspan⟩

/-- A complaint about the value of an expression marks a part of its text. -/
theorem isSound_of_evaluate_error {text shown : String} {complaint : Complaint}
    (h : s.evaluate text = .error (.parse complaint shown)) :
    shown = text ∧ complaint.span.IsSound text := by
  rcases (bind_eq_error_iff _ _ _).mp h with hparse | ⟨e, hparse, hvalue⟩
  · exact isSound_of_parse_error hparse
  · obtain ⟨cause, hcause, heq⟩ := (mapError_eq_error_iff _ _ _).mp hvalue
    cases cause with
    | dimension cause => contradiction
    | unknownUnit name span =>
      obtain ⟨rfl, rfl⟩ := Error.parse.inj heq
      obtain ⟨term, hterm, rfl⟩ := exists_of_evaluateFrom_error hcause
      exact ⟨rfl, (isMarkedIn_of_parse hparse).sound term hterm⟩

end

end Expression

/-- Every span that comes from a text is sound for it. The definitions of a file have spans that
begin with their declarations and follow one another, the factors of an expression have spans that
begin with their bases and follow one another, and whatever is complained about in a file, in an
expression or in its value in a system, the complaint shows the text and marks a part of it. -/
theorem spans_sound (text : String) :
    (∀ source limits ds, DefinitionFile.parse text source limits = .ok ds →
      (∀ d ∈ ds, d.IsMarkedIn text) ∧
        (ds.filterMap (·.span)).Pairwise fun first second => first.stop ≤ second.start) ∧
      (∀ e, Expression.parse text = .ok e → e.IsMarkedIn text) ∧
      ∀ complaint shown,
        (∃ source limits,
            DefinitionFile.parse text source limits = .error (.parse complaint shown)) ∨
          Expression.parse text = .error (.parse complaint shown) ∨
          (∃ s : Specification, s.evaluate text = .error (.parse complaint shown)) →
        shown = text ∧ complaint.span.IsSound text := by
  refine ⟨fun source limits ds h => marked_of_parse h,
    fun e h => Expression.isMarkedIn_of_parse h, ?_⟩
  rintro complaint shown (⟨source, limits, hfile⟩ | hexpression | ⟨s, hvalue⟩)
  · exact isSound_of_parse_error hfile
  · exact Expression.isSound_of_parse_error hexpression
  · exact Expression.isSound_of_evaluate_error hvalue

/-- In a file and in an expression with letters of two bytes, the spans are counted in bytes and the
columns in characters. The file is no expression, which is complained about at its start. -/
theorem spans_sound_accents :
    let file := "# é\nsystem Motion # µ\n units Metre\n\n system Time"
    let expression := "1 / Metre^2 # µ"
    let first : Definition :=
      { name := "Motion", units := ["Metre"], source := some "<input>",
        span := some ⟨5, 36, 2, 1⟩ }
    let second : Definition :=
      { name := "Time", source := some "<input>", span := some ⟨39, 50, 5, 2⟩ }
    let factors : Expression :=
      [(.times, ⟨.one, 1, 1, ⟨0, 2, 1, 1⟩⟩), (.over, ⟨.unit "Metre", 2, 1, ⟨4, 16, 1, 5⟩⟩)]
    DefinitionFile.parse file none {} = .ok [first, second] ∧
      (∀ d ∈ [first, second], d.IsMarkedIn file) ∧
      Expression.parse expression = .ok factors ∧ factors.IsMarkedIn expression ∧
      ∃ complaint, Expression.parse file = .error (.parse complaint file) ∧
        complaint.span.IsSound file := by
  intro file expression first second factors
  have hfile : DefinitionFile.parse file none {} = .ok [first, second] :=
    eq_ok_of_toOption _ _ (by decide +kernel)
  have hexpression : Expression.parse expression = .ok factors :=
    eq_ok_of_toOption _ _ (by decide +kernel)
  have hnone : (Expression.parse file).toOption = none := by decide +kernel
  obtain ⟨error, herror⟩ : ∃ error, Expression.parse file = .error error := by
    cases hparse : Expression.parse file with
    | error error => exact ⟨error, rfl⟩
    | ok e => simp [hparse, Except.toOption] at hnone
  obtain ⟨complaint, rfl⟩ := Expression.parse_error file error herror
  exact ⟨hfile, ((spans_sound file).1 none {} _ hfile).1, hexpression,
    (spans_sound expression).2.1 _ hexpression, complaint, herror,
    ((spans_sound file).2.2 complaint file (.inr (.inl herror))).2⟩

end UnitSystems
