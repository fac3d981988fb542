import UnitSystems.Proofs.DefinitionFile.Concatenation
import UnitSystems.Proofs.DefinitionFile.Order
import UnitSystems.Proofs.Grammar.LineStarts

/-!
# Declarations at the start of a line

Every directive of an accepted text begins a line, since a line break has to stand before it. The
first system begins a line too, but a further one only where a line break stands between it and the
system before it. The grammar asks for no such line break, so that two systems may share a line.
-/

namespace UnitSystems

open Grammar

/-- A word begins a line of a text: it stands there as a whole, and only blanks stand between the
line break before it, or the start of the text, and the word. -/
def BeginsLine (word : String) (offset : Nat) (text : List Char) : Prop :=
  Stands word (splitAtByte offset text).2 ∧ OpensLine (splitAtByte offset text).1

instance (word : String) (offset : Nat) (text : List Char) :
    Decidable (BeginsLine word offset text) :=
  inferInstanceAs (Decidable ((_ = true) ∧ _))

/-- A word that stands behind a text begins a line when the text leads to the start of one. -/
theorem beginsLine_append_iff {word : String} (before : List Char) {after : List Char}
    (h : Stands word after) :
    BeginsLine word (String.utf8Len before) (before ++ after) ↔ OpensLine before := by
  rw [BeginsLine, splitAtByte_append]
  exact and_iff_right h

/-- Padding leads to the start of a line, and a comment in it to its end. -/
theorem opensLine_of_isPadding (inComment : Bool) (text : List Char)
    (h : isPadding inComment text = true) :
    OpensLine text ∧ (inComment = true → ∃ c ∈ text, isLineBreak c = true) := by
  induction text generalizing inComment with
  | nil => exact ⟨.nil, fun hcomment => by simp [isPadding, hcomment] at h⟩
  | cons c text ih =>
    have hmore (hbreak : ∃ d ∈ text, isLineBreak d = true) : ∃ d ∈ c :: text,
        isLineBreak d = true := hbreak.imp fun d hd => ⟨List.mem_cons_of_mem c hd.1, hd.2⟩
    have hsingle (hc : isLineBreak c = true ∨ isBlank c = true) : OpensLine [c] :=
      (opensLine_concat_iff [] c).mpr (hc.imp_right fun hblank => ⟨.nil, hblank⟩)
    rw [isPadding] at h
    split at h
    · next hcomment =>
      obtain ⟨hopens, hbreak⟩ := ih _ h
      cases hc : isLineBreak c with
      | true => exact ⟨(hsingle (.inl hc)).append hopens, fun _ => ⟨c, List.mem_cons_self, hc⟩⟩
      | false =>
        have hbreak := hbreak (by simp [hc])
        exact ⟨hopens.append_of_lineBreak [c] hbreak, fun _ => hmore hbreak⟩
    · next hcomment =>
      refine ⟨?_, fun hin => absurd hin hcomment⟩
      split at h
      · next hpadding =>
        rw [Bool.or_eq_true] at hpadding
        exact (hsingle hpadding.symm).append (ih _ h).1
      · rw [Bool.and_eq_true] at h
        obtain ⟨hopens, hbreak⟩ := ih _ h.2
        exact hopens.append_of_lineBreak [c] (hbreak rfl)

/-- What is passed over before something else is padding, with all its comments at their ends. -/
theorem isPadding_of_pastPadding (inComment : Bool) (padding start : List Char)
    (hne : start ≠ []) (h : pastPadding inComment (padding ++ start) = start) :
    isPadding inComment padding = true := by
  -- nothing that is passed over comes back
  have hlength (inComment : Bool) (text : List Char) :
      (pastPadding inComment text).length ≤ text.length := by
    induction text generalizing inComment with
    | nil => exact Nat.le_refl _
    | cons c text ih =>
      rw [pastPadding]
      split
      · exact Nat.le_succ_of_le (ih _)
      · split
        · exact Nat.le_succ_of_le (ih _)
        · split
          · exact Nat.le_succ_of_le (ih _)
          · exact Nat.le_refl _
  induction padding generalizing inComment with
  | nil =>
    obtain ⟨c, start, rfl⟩ := List.exists_cons_of_ne_nil hne
    cases inComment with
    | false => rfl
    | true =>
      have hle := hlength (!isLineBreak c) start
      have heq := congrArg List.length h
      simp only [List.nil_append, pastPadding, ↓reduceIte, List.length_cons] at heq
      omega
  | cons c padding ih =>
    rw [List.cons_append, pastPadding] at h
    rw [isPadding]
    split
    · next hcomment => exact ih _ (by rwa [if_pos hcomment] at h)
    · next hcomment =>
      rw [if_neg hcomment] at h
      split
      · next hpadding => exact ih _ (by rwa [if_pos hpadding] at h)
      · next hpadding =>
        rw [if_neg hpadding] at h
        split at h
        · next hc => simp [hc, ih _ h]
        · have heq := congrArg List.length h
          simp only [List.length_cons, List.length_append] at heq
          omega

/-- Behind a mark, padding leads to the start of a line exactly when a line break is in it. -/
theorem opensLine_append_padding_iff {before padding : List Char} (hbefore : ¬OpensLine before)
    (hpadding : isPadding false padding = true) :
    OpensLine (before ++ padding) ↔ ∃ c ∈ padding, isLineBreak c = true := by
  constructor
  · intro hopens
    by_contra hbreak
    simp only [not_exists, not_and, Bool.not_eq_true] at hbreak
    exact hbefore (hopens.of_append_left hbreak)
  · exact (opensLine_of_isPadding false padding hpadding).1.append_of_lineBreak before

/-- The directives of two runs of pieces stand one after the other. -/
theorem directivesOf_append (start : Place) (first second : List (Piece Part)) :
    SystemText.directivesOf start (first ++ second) = SystemText.directivesOf start first ++
      SystemText.directivesOf (start.after (Piece.textOf first)) second := by
  simp only [SystemText.directivesOf, located_append, List.filterMap_append]

/-- Plain pieces have no directives at any place. -/
theorem directivesOf_plain (start : Place) (pieces : List (Piece Part))
    (h : Piece.ArePlain pieces) : SystemText.directivesOf start pieces = [] := by
  rw [← List.map_eq_nil_iff, map_directivesOf, directives_plain pieces h]

/-- A directive stands with its word where it was read. -/
theorem stands_of_read_directive {text rest : List Char} {pieces : List (Piece Part)}
    (h : Form.directive.read text = some (pieces, rest)) (start : Place) :
    ∀ entry ∈ SystemText.directivesOf start pieces,
      entry.1.start = start.offset ∧ Stands entry.2.word text := by
  obtain ⟨form, hform, hread⟩ := (read_directive_iff _ _).mp h
  intro entry hentry
  have hword : entry.2.word = form.2 := by
    refine word_of_read_form form hform hread entry.2 ?_
    rw [← map_directivesOf start]
    exact List.mem_map_of_mem hentry
  rw [hword]
  refine ⟨?_, stands_of_read_form form hform text _ hread⟩
  simp only [directiveForms, List.mem_cons, List.not_mem_nil, or_false] at hform
  rcases hform with rfl | rfl | rfl | rfl | rfl | rfl | rfl | rfl <;>
    obtain ⟨inner, -, rfl⟩ := Pattern.exists_of_read_branch hread <;>
    exact List.mem_singleton.mp hentry ▸ rfl

/-- The directive of a line begins one, whatever stands before the line. -/
theorem beginsLine_of_read_line {before text rest : List Char} {pieces : List (Piece Part)}
    (h : afterGap line.read text = some (pieces, rest)) :
    ∀ entry ∈ SystemText.directivesOf (Place.after {} before) pieces,
      BeginsLine entry.2.word entry.1.start (before ++ text) := by
  obtain ⟨inner, hinner, rfl⟩ := exists_of_afterGap h
  obtain ⟨breaks, middle, second, hbreaks, hsecond, rfl⟩ := Pattern.exists_of_read_spaced hinner
  obtain ⟨directive, hdirective, rfl⟩ := exists_of_afterGap hsecond
  obtain ⟨⟨c, hhead, hc⟩, hgap, hplain⟩ := of_read_lineBreaks hbreaks
  have hbelow : Piece.textOf breaks ++ ((gap middle).1 ++ (gap middle).2) = (gap text).2 := by
    rw [gap_append, Form.lineBreaks.lossless _ _ _ hbreaks]
  have hne : (gap middle).2 ≠ [] := by
    intro hnil
    rw [hnil] at hdirective
    contradiction
  have hpadding : isPadding false (Piece.textOf breaks ++ (gap middle).1) = true := by
    refine isPadding_of_pastPadding false _ _ hne ?_
    rw [List.append_assoc, hbelow, ← afterPadding, hgap]
  have hbreak : ∃ d ∈ Piece.textOf breaks ++ (gap middle).1, isLineBreak d = true := by
    refine ⟨c, ?_, hc⟩
    rw [← hbelow, ← List.append_assoc, List.head?_append, Option.mem_def,
      Option.or_eq_some_iff] at hhead
    rcases hhead with hhead | ⟨-, hhead⟩
    · exact List.mem_of_mem_head? hhead
    · -- what is left behind the padding begins with no line break
      rw [hgap] at hhead
      rw [(pastPadding_head false _ c hhead).2.1] at hc
      contradiction
  have hopens := (opensLine_of_isPadding false _ hpadding).1.append_of_lineBreak
    (before ++ (gap text).1) hbreak
  have hpieces : Piece.plain (gap text).1 :: (breaks ++ Piece.plain (gap middle).1 :: directive) =
      (.plain (gap text).1 :: (breaks ++ [.plain (gap middle).1])) ++ directive := by simp
  have hallPlain : Piece.ArePlain (.plain (gap text).1 :: (breaks ++ [.plain (gap middle).1])) := by
    simp only [Piece.ArePlain, List.forall_mem_cons, List.forall_mem_append, List.not_mem_nil,
      false_imp_iff, implies_true, and_true]
    exact ⟨⟨_, rfl⟩, hplain, _, rfl⟩
  have hwhole : before ++ text = before ++ (gap text).1 ++
      (Piece.textOf breaks ++ (gap middle).1) ++ (gap middle).2 := by
    rw [List.append_assoc _ _ (gap middle).2, List.append_assoc _ (gap middle).1, hbelow,
      List.append_assoc, gap_append]
  rw [hpieces, directivesOf_append, directivesOf_plain _ _ hallPlain, List.nil_append,
    ← Place.after_append, hwhole]
  intro entry hentry
  obtain ⟨hstart, hstands⟩ := stands_of_read_directive hdirective _ entry hentry
  have hoffset : entry.1.start =
      String.utf8Len (before ++ (gap text).1 ++ (Piece.textOf breaks ++ (gap middle).1)) := by
    rw [hstart, offset_after]
    simp [Piece.textOf, Piece.text, Piece.textOf_append]
  rw [hoffset]
  exact (beginsLine_append_iff _ hstands).mpr hopens

/-- The directives on the lines below a declaration begin lines. -/
theorem beginsLine_of_repeats {before text rest : List Char} {pieces : List (Piece Part)}
    (h : Repeats (afterGap line.read) text pieces rest) :
    ∀ entry ∈ SystemText.directivesOf (Place.after {} before) pieces,
      BeginsLine entry.2.word entry.1.start (before ++ text) := by
  induction h generalizing before with
  | stop => simp [SystemText.directivesOf, located]
  | @round text middle rest first more hround hmore ih =>
    have htext := line.lossless.afterGap _ _ _ hround
    rw [directivesOf_append, ← Place.after_append]
    refine List.forall_mem_append.mpr ⟨beginsLine_of_read_line hround, ?_⟩
    rw [← htext, ← List.append_assoc]
    exact ih

/-- The directives of a system begin lines. -/
theorem beginsLine_of_read_system (before : List Char) {text rest : List Char}
    {inside : List (Piece Part)}
    (h : Form.system.read text = some ([.branch .system inside], rest)) :
    ∀ entry ∈ (SystemText.ofParts (Place.after {} before) inside).directives,
      BeginsLine entry.2.word entry.1.start (before ++ text) := by
  obtain ⟨inner, hinner, heq⟩ := Pattern.exists_of_read_branch h
  cases heq
  obtain ⟨first, middle, below, hfirst, hbelow, rfl⟩ := Pattern.exists_of_read_spaced hinner
  have htext := Form.systemName.lossless _ _ _ hfirst
  have hname : SystemText.directivesOf (Place.after {} before) first = [] := by
    obtain ⟨_, -, rfl⟩ := Pattern.exists_of_read_branch hfirst
    rfl
  show ∀ entry ∈ SystemText.directivesOf _ (first ++ below), _
  rw [directivesOf_append, hname, List.nil_append, ← Place.after_append, ← htext,
    ← List.append_assoc]
  obtain ⟨-, rfl, -⟩ | ⟨-, hrepeats⟩ :=
    (Pattern.afterGap_spacedMany_iff (p := line) (by decide)).mp hbelow
  · simp [SystemText.directivesOf, located, Directive.ofPiece?]
  · exact beginsLine_of_repeats hrepeats

/-- How a system stands behind the one before it: only padding is between them, and it begins a line
exactly when a line break is in the padding. -/
structure FollowsIn (text : List Char) (first second : SystemText) : Prop where
  padding : isPadding false (between first.span.stop second.span.start text) = true
  stands : Stands "system" (splitAtByte second.span.start text).2
  beginsLine_iff : BeginsLine "system" second.span.start text ↔
    ∃ c ∈ between first.span.stop second.span.start text, isLineBreak c = true

/-- The first system of a text stands in it behind padding. -/
theorem HoldsSystems.exists_first (before : List Char) {text : List Char} {system : SystemText}
    {found : List SystemText} (h : HoldsSystems (Place.after {} before) text (system :: found)) :
    ∃ padding start, text = padding ++ start ∧ isPadding false padding = true ∧
      Stands "system" start ∧ system.span.start = String.utf8Len (before ++ padding) := by
  cases h with
  | @more _ padding start _ inside _ hpadding hread _ =>
    have hne : start ≠ [] := by
      rintro rfl
      contradiction
    refine ⟨padding, start, rfl, isPadding_of_pastPadding false _ _ hne hpadding,
      stands_of_read_system hread, ?_⟩
    show ((Place.after {} before).after padding).offset = _
    rw [← Place.after_append, offset_after]

/-- A system follows the one whose text stands before it. -/
theorem HoldsSystems.follows {before rest : List Char} {inside : List (Piece Part)}
    {second : SystemText} {found : List SystemText}
    (hmark : ¬OpensLine (before ++ Piece.textOf inside))
    (h : HoldsSystems (Place.after {} (before ++ Piece.textOf inside)) rest (second :: found)) :
    FollowsIn (before ++ (Piece.textOf inside ++ rest))
      (SystemText.ofParts (Place.after {} before) inside) second := by
  obtain ⟨padding, start, rfl, hpadding, hstands, hstart⟩ := h.exists_first _
  have hstop : (SystemText.ofParts (Place.after {} before) inside).span.stop =
      String.utf8Len (before ++ Piece.textOf inside) :=
    (bytes_covering before (Piece.textOf inside)).2
  have hbetween := between_append (before ++ Piece.textOf inside) padding start
  have hbegins := (beginsLine_append_iff (before ++ Piece.textOf inside ++ padding) hstands).trans
    (opensLine_append_padding_iff hmark hpadding)
  have hsplit := splitAtByte_append (before ++ Piece.textOf inside ++ padding) start
  rw [List.append_assoc (before ++ Piece.textOf inside) padding start] at hbegins hsplit
  rw [← hstart] at hbetween hbegins hsplit
  rw [← hstop] at hbetween
  rw [← List.append_assoc]
  exact ⟨by rwa [hbetween], by rwa [hsplit], by rwa [hbetween]⟩

/-- In a text that holds systems, every directive begins a line, and every system but the first
follows the one before it. -/
theorem HoldsSystems.lineStarts (before : List Char) {text : List Char} {found : List SystemText}
    (h : HoldsSystems (Place.after {} before) text found) :
    (∀ system ∈ found, ∀ entry ∈ system.directives,
      BeginsLine entry.2.word entry.1.start (before ++ text)) ∧
        found.IsChain (FollowsIn (before ++ text)) := by
  constructor
  · intro system hsystem
    obtain ⟨front, start, rest, inside, rfl, hread, rfl⟩ := h.exists_read system hsystem
    rw [← Place.after_append, ← List.append_assoc]
    exact beginsLine_of_read_system (before ++ front) hread
  generalize hplace : Place.after {} before = place at h
  induction h generalizing before with
  | done => exact .nil
  | @more place padding start rest inside found hpadding hread hrest ih =>
    obtain rfl := hplace
    obtain ⟨_, heq, htext⟩ := of_read_system hread
    cases heq
    have hmark : ¬OpensLine (before ++ padding ++ Piece.textOf inside) := by
      have hinside := Pattern.not_opensLine_of_read marksLine_system hread
      simp only [Piece.textOf, Piece.text, List.append_nil] at hinside
      exact fun hopens => hinside hopens.of_append_right
    rw [← Place.after_append, ← Place.after_append, ← List.append_assoc] at hrest ih
    rw [← Place.after_append, ← List.append_assoc]
    have hchain := ih _ rfl
    rw [List.append_assoc, htext] at hchain
    cases found with
    | nil => exact .singleton _
    | cons second found =>
      refine List.isChain_cons_cons.mpr ⟨?_, hchain⟩
      have hfollows := hrest.follows hmark
      rwa [htext] at hfollows

/-- In every accepted text, each directive of each system begins a line, and so does the first
system. A further system stands behind the one before it and padding, and begins a line exactly when
a line break is in this padding. -/
theorem parse_lineStarts (text : String) (source : Option String) (limits : Limits)
    (ds : List Definition) (h : DefinitionFile.parse text source limits = .ok ds) :
    ∃ found,
      DefinitionFile.systems text.toList (source.getD DefinitionFile.unnamedSource) = .ok found ∧
      Definition.ofTexts (source.getD DefinitionFile.unnamedSource) found = .ok ds ∧
      (∀ system ∈ found, ∀ entry ∈ system.directives,
        BeginsLine entry.2.word entry.1.start text.toList) ∧
      (∀ system ∈ found.head?, BeginsLine "system" system.span.start text.toList) ∧
      found.IsChain (FollowsIn text.toList) := by
  obtain ⟨-, found, hfound, hds⟩ := (parse_eq_ok_iff _ _ _ _).mp h
  have hlines := HoldsSystems.lineStarts [] hfound
  refine ⟨found, (systems_eq_ok_iff _ _ _).mpr hfound, hds, hlines.1, ?_, hlines.2⟩
  intro system hsystem
  obtain ⟨others, rfl⟩ := List.head?_eq_some_iff.mp hsystem
  obtain ⟨padding, start, htext, hpadding, hstands, hstart⟩ := HoldsSystems.exists_first [] hfound
  rw [hstart, htext, List.nil_append]
  exact (beginsLine_append_iff _ hstands).mpr (opensLine_of_isPadding false padding hpadding).1

/-- In a text with blank lines, a comment and a list over two lines, every declaration begins a
line. -/
theorem parse_lineStarts_motion :
    let text := "# one\n system Motion\n\n\tunits Metre,\n Second # two\r  root 2\n\r\n system Time"
    let first : Definition :=
      { name := "Motion", units := ["Metre", "Second"], allowedRoot := 2,
        source := some "<input>", span := some ⟨7, 58, 2, 2⟩ }
    let second : Definition :=
      { name := "Time", source := some "<input>", span := some ⟨62, 73, 7, 2⟩ }
    DefinitionFile.parse text none {} = .ok [first, second] ∧
      ∃ found, DefinitionFile.systems text.toList "<input>" = .ok found ∧
        Definition.ofTexts "<input>" found = .ok [first, second] ∧
        (∀ system ∈ found, ∀ entry ∈ system.directives,
          BeginsLine entry.2.word entry.1.start text.toList) ∧
        (∀ system ∈ found.head?, BeginsLine "system" system.span.start text.toList) ∧
        found.IsChain (FollowsIn text.toList) := by
  intro text first second
  have hparse : DefinitionFile.parse text none {} = .ok [first, second] :=
    eq_ok_of_toOption _ _ (by decide +kernel)
  exact ⟨hparse, parse_lineStarts text none {} _ hparse⟩

/-- Two systems on one line are accepted, though the second of them begins none. -/
theorem systems_on_one_line :
    let text := "system A system B"
    let first : SystemText := ⟨"A", [], ⟨0, 9, 1, 1⟩⟩
    let second : SystemText := ⟨"B", [], ⟨9, 17, 1, 10⟩⟩
    (∃ ds, DefinitionFile.parse text none {} = .ok ds) ∧
      DefinitionFile.systems text.toList "<input>" = .ok [first, second] ∧
      ¬BeginsLine "system" second.span.start text.toList := by
  intro text first second
  have hsystems : DefinitionFile.systems text.toList "<input>" = .ok [first, second] :=
    eq_ok_of_toOption _ _ (by decide +kernel)
  have hparse : DefinitionFile.parse text none {} = .ok
      [{ name := "A", source := some "<input>", span := some first.span },
        { name := "B", source := some "<input>", span := some second.span }] :=
    eq_ok_of_toOption _ _ (by decide +kernel)
  exact ⟨⟨_, hparse⟩, hsystems, by decide +kernel⟩

end UnitSystems
