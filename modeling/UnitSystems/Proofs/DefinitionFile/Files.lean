import UnitSystems.Proofs.DefinitionFile.Continuation

/-!
# The systems of a file

A file holds the systems that are found one after the other behind padding, up to the end of the
text. The grammar gathers them in a repetition with line breaks between its rounds; here they are
followed one at a time, each from the place where it begins.
-/

namespace UnitSystems

open Grammar

/-- What a text holds, given the place where it begins: nothing but padding, or a system behind
padding and then further systems. -/
inductive HoldsSystems : Place → List Char → List SystemText → Prop
  | done {place : Place} {text : List Char} (hend : afterPadding text = []) :
      HoldsSystems place text []
  | more {place : Place} {padding start rest : List Char} {inside : List (Piece Part)}
      {found : List SystemText} (hpadding : afterPadding (padding ++ start) = start)
      (hread : Form.system.read start = some ([.branch .system inside], rest))
      (hrest : HoldsSystems ((place.after padding).after (Piece.textOf inside)) rest found) :
      HoldsSystems place (padding ++ start)
        (SystemText.ofParts (place.after padding) inside :: found)

/-- Plain pieces hold no system. -/
theorem systemsOf_plain (start : Place) (pieces : List (Piece Part)) (h : Piece.ArePlain pieces) :
    SystemText.systemsOf start pieces = [] := by
  induction pieces generalizing start with
  | nil => rfl
  | cons piece pieces ih =>
    obtain ⟨⟨text, rfl⟩, hpieces⟩ := List.forall_mem_cons.mp h
    exact ih _ hpieces

/-- The systems of a file stand in it one after the other, and plain pieces between them. -/
theorem systemsOf_system (start : Place) (blanks : List Char)
    (inside plain more : List (Piece Part)) (hplain : Piece.ArePlain plain) :
    SystemText.systemsOf start (.plain blanks :: .branch .system inside :: (plain ++ more)) =
      SystemText.ofParts (start.after blanks) inside ::
        SystemText.systemsOf (((start.after blanks).after (Piece.textOf inside)).after
          (Piece.textOf plain)) more := by
  have htail := systemsOf_append ((start.after blanks).after (Piece.textOf inside)) plain more
  rw [systemsOf_plain _ plain hplain, List.nil_append] at htail
  rw [← htail]
  simp only [SystemText.systemsOf, located, Piece.text, List.filterMap_cons,
    SystemText.ofLocated?]

/-- A system is read as one branch. -/
theorem of_read_system {text rest : List Char} {pieces : List (Piece Part)}
    (h : Form.system.read text = some (pieces, rest)) :
    ∃ inside, pieces = [.branch .system inside] ∧ Piece.textOf inside ++ rest = text := by
  have hlossless := Form.system.lossless _ _ _ h
  obtain ⟨inside, -, rfl⟩ := Pattern.exists_of_read_branch h
  simp only [Piece.textOf, Piece.text, List.append_nil] at hlossless
  exact ⟨inside, rfl, hlossless⟩

namespace HoldsSystems

/-- Padding before a text holds nothing. -/
theorem padded {place : Place} {padding text : List Char} {found : List SystemText}
    (h : HoldsSystems (place.after padding) text found)
    (hpadding : afterPadding (padding ++ text) = afterPadding text) :
    HoldsSystems place (padding ++ text) found := by
  cases h with
  | done hend => exact .done (hpadding.trans hend)
  | more hbefore hread hrest =>
    rw [← Place.after_append place padding] at hrest ⊢
    rw [← List.append_assoc] at hpadding ⊢
    exact .more (hpadding.trans hbefore) hread hrest

/-- After the padding of a text that holds systems, the text ends or a system begins. -/
theorem endsOr {place : Place} {text : List Char} {found : List SystemText}
    (h : HoldsSystems place text found) :
    EndsOr (Form.declarationWord .systemWord "system") (afterPadding text) := by
  cases h with
  | done hend => exact .inl hend
  | more hpadding hread hrest =>
    rw [hpadding]
    exact .inr ((isSome_read_declarationWord_iff _ _ _).mpr (stands_of_read_system hread))

/-- Every system that a text holds was read in it at its place. -/
theorem exists_read {place : Place} {text : List Char} {found : List SystemText}
    (h : HoldsSystems place text found) :
    ∀ system ∈ found, ∃ before start rest inside, text = before ++ start ∧
      Form.system.read start = some ([.branch .system inside], rest) ∧
      system = SystemText.ofParts (place.after before) inside := by
  induction h with
  | done => simp
  | @more place padding start rest inside found hpadding hread hrest ih =>
    obtain ⟨_, heq, rfl⟩ := of_read_system hread
    cases heq
    refine List.forall_mem_cons.mpr ⟨⟨padding, _, rest, inside, rfl, hread, rfl⟩, ?_⟩
    intro system hsystem
    obtain ⟨before, start, last, parts, rfl, hparts, rfl⟩ := ih system hsystem
    refine ⟨padding ++ (Piece.textOf inside ++ before), start, last, parts, ?_, hparts, ?_⟩
    · simp only [List.append_assoc]
    · rw [Place.after_append, Place.after_append]

end HoldsSystems

/-- A system with the line breaks behind it. -/
def systemAndBreaks : Pattern Part :=
  .spaced Form.system (.spacedMany Form.lineBreak)

/-- A system is read first, and then the line breaks behind it. -/
theorem read_systemAndBreaks_iff {text rest : List Char} {pieces : List (Piece Part)} :
    systemAndBreaks.read text = some (pieces, rest) ↔
      ∃ inside plain after, Form.system.read text = some ([.branch .system inside], after) ∧
        afterGap (Pattern.spacedMany Form.lineBreak).read after = some (plain, rest) ∧
        pieces = .branch .system inside :: plain := by
  constructor
  · intro h
    obtain ⟨first, after, plain, hfirst, hplain, rfl⟩ := Pattern.exists_of_read_spaced h
    obtain ⟨inside, rfl, -⟩ := of_read_system hfirst
    exact ⟨inside, plain, after, hfirst, hplain, rfl⟩
  · rintro ⟨inside, plain, after, hsystem, hplain, rfl⟩
    rw [systemAndBreaks, Pattern.read_spaced_eq, hsystem, Option.bind_some, hplain]
    rfl

/-- The systems of a repetition are what its text holds, when nothing is left of the text. -/
theorem holdsSystems_of_repeats {place : Place} {text rest : List Char} {pieces : List (Piece Part)}
    (h : Repeats (afterGap systemAndBreaks.read) text pieces rest) (hrest : (gap rest).2 = [])
    (htext : (gap text).2 = afterPadding text) :
    HoldsSystems place text (SystemText.systemsOf place pieces) := by
  induction h generalizing place with
  | stop => exact .done (htext ▸ hrest)
  | @round text middle rest pieces more hround hmore ih =>
    obtain ⟨inner, hinner, rfl⟩ := exists_of_afterGap hround
    obtain ⟨inside, plain, after, hsystem, hbreaks, rfl⟩ := read_systemAndBreaks_iff.mp hinner
    obtain ⟨hplain, rfl, hgap, hpadding⟩ := of_read_breaks_afterGap hbreaks
    have hmiddle : HoldsSystems (((place.after (gap text).1).after (Piece.textOf inside)).after
        (Piece.textOf plain)) middle (SystemText.systemsOf _ more) :=
      ih hrest (hgap.trans hpadding.symm)
    have hbefore : afterPadding ((gap text).1 ++ (gap text).2) = (gap text).2 := by
      rw [gap_append, htext]
    have hsystems : HoldsSystems place ((gap text).1 ++ (gap text).2) _ :=
      .more hbefore hsystem (hmiddle.padded hpadding.symm)
    rw [gap_append] at hsystems
    rwa [List.cons_append, List.cons_append, systemsOf_system _ _ _ _ _ hplain]

/-- What a text holds is found by a repetition that begins in the padding and leaves nothing. -/
theorem HoldsSystems.exists_repeats {place : Place} {text : List Char} {found : List SystemText}
    (h : HoldsSystems place text found) {before middle : List Char}
    (htext : before ++ middle = text) (hgap : (gap middle).2 = afterPadding text) :
    ∃ pieces rest, Repeats (afterGap systemAndBreaks.read) middle pieces rest ∧
      (gap rest).2 = [] ∧ SystemText.systemsOf (place.after before) pieces = found := by
  induction h generalizing before middle with
  | done hend =>
    refine ⟨[], middle, .stop ?_, hgap.trans hend, rfl⟩
    rw [afterGap, hgap, hend]
    rfl
  | @more place padding start after inside found hpadding hsystem hrest ih =>
    rw [hpadding] at hgap
    obtain ⟨plain, rest, hbreaks⟩ := exists_read_breaks after
    obtain ⟨hplain, hafter, hgap', -⟩ := of_read_breaks_afterGap hbreaks
    obtain ⟨pieces, last, hrepeats, hlast, hfound⟩ := ih hafter hgap'
    have hround : afterGap systemAndBreaks.read middle =
        some (.plain (gap middle).1 :: .branch .system inside :: plain, rest) := by
      have hinner := read_systemAndBreaks_iff.mpr ⟨inside, plain, after, hsystem, hbreaks, rfl⟩
      rw [afterGap, hgap, hinner, Option.map_some]
    -- both ways to the system pass over the same characters
    have hplace : padding = before ++ (gap middle).1 := by
      rw [← gap_append middle, hgap, ← List.append_assoc] at htext
      exact (List.append_cancel_right htext).symm
    refine ⟨_, last, .round hround hrepeats, hlast, ?_⟩
    rw [List.cons_append, List.cons_append, systemsOf_system _ _ _ _ _ hplain,
      ← Place.after_append, ← hplace, hfound]

/-- The end of the text stands behind a gap when nothing else is left. -/
theorem afterGap_endOfText_iff {text rest : List Char} {pieces : List (Piece Part)} :
    afterGap Form.endOfText.read text = some (pieces, rest) ↔
      (gap text).2 = [] ∧ rest = [] ∧ pieces = [.plain (gap text).1, .leaf .endOfText []] := by
  rw [afterGap]
  cases hgap : (gap text).2 with
  | nil => simp [Form.endOfText, Pattern.read, Piece.textOf, eq_comm, and_comm]
  | cons c after => simp [Form.endOfText, Pattern.read]

/-- A file is read as what stands in it behind the first gap. -/
theorem read_unitsFile_eq (text : List Char) : Form.unitsFile.read text =
    (afterGap (Pattern.spaced (.spacedMany Form.lineBreak)
      (.spaced (.spacedMany systemAndBreaks) Form.endOfText)).read text).map fun reading =>
        ([.branch .unitsFile (.plain [] :: reading.1)], reading.2) := by
  have hstart : (Pattern.word [] : Pattern Part).read text = some ([.plain []], text) := rfl
  rw [Form.unitsFile, Pattern.read, Pattern.read_spaced_eq, hstart, Option.bind_some,
    Option.map_map]
  rfl

/-- A file is line breaks, then systems, and then at most a gap. -/
theorem read_unitsFile_iff {text rest : List Char} {pieces : List (Piece Part)} :
    Form.unitsFile.read text = some (pieces, rest) ↔
      ∃ breaks middle systems last,
        afterGap (Pattern.spacedMany Form.lineBreak).read text = some (breaks, middle) ∧
        afterGap (Pattern.spacedMany systemAndBreaks).read middle = some (systems, last) ∧
        (gap last).2 = [] ∧ rest = [] ∧ pieces = [.branch .unitsFile (.plain [] :: (breaks ++
          (systems ++ [.plain (gap last).1, .leaf .endOfText []])))] := by
  rw [read_unitsFile_eq]
  constructor
  · intro h
    obtain ⟨⟨body, left⟩, hbody, heq⟩ := Option.map_eq_some_iff.mp h
    obtain ⟨rfl, rfl⟩ := Prod.mk.inj heq
    obtain ⟨breaks, middle, more, hbreaks, hmore, rfl⟩ := (Pattern.afterGap_spaced_iff _ _).mp hbody
    obtain ⟨systems, last, ending, hsystems, hending, rfl⟩ :=
      (Pattern.afterGap_spaced_iff _ _).mp hmore
    obtain ⟨hlast, rfl, rfl⟩ := afterGap_endOfText_iff.mp hending
    exact ⟨breaks, middle, systems, last, hbreaks, hsystems, hlast, rfl, rfl⟩
  · rintro ⟨breaks, middle, systems, last, hbreaks, hsystems, hlast, rfl, rfl⟩
    have hending := afterGap_endOfText_iff.mpr ⟨hlast, rfl, rfl⟩
    have hmore := (Pattern.afterGap_spaced_iff _ _).mpr ⟨_, _, _, hsystems, hending, rfl⟩
    have hbody := (Pattern.afterGap_spaced_iff _ _).mpr ⟨_, _, _, hbreaks, hmore, rfl⟩
    rw [hbody, Option.map_some]

/-- The systems of a whole file are those between its first line breaks and its end. -/
theorem ofFile_unitsFile (breaks systems : List (Piece Part)) (hbreaks : Piece.ArePlain breaks)
    (blanks : List Char) :
    SystemText.ofFile (.plain [] :: (breaks ++ (systems ++ [.plain blanks, .leaf .endOfText []]))) =
      SystemText.systemsOf (Place.after {} (Piece.textOf breaks)) systems := by
  show SystemText.systemsOf {} (breaks ++ (systems ++ [.plain blanks, .leaf .endOfText []])) = _
  rw [systemsOf_append, systemsOf_plain _ _ hbreaks, List.nil_append, systemsOf_append]
  exact List.append_nil _

/-- A text is read as systems when the whole of it is read as a file that holds them. -/
theorem systems_eq_ok_iff_read (text : List Char) (source : String) (found : List SystemText) :
    DefinitionFile.systems text source = .ok found ↔ ∃ parts rest,
      Form.unitsFile.read text = some ([.branch .unitsFile parts], rest) ∧
        SystemText.ofFile parts = found := by
  rw [DefinitionFile.systems, readBranch]
  cases hfile : Form.unitsFile.read text with
  | none => simp [Except.map]
  | some reading =>
    obtain ⟨pieces, rest⟩ := reading
    obtain ⟨parts, -, rfl⟩ := Pattern.exists_of_read_branch hfile
    simp [Except.map]

/-- A text is read as systems exactly when these are what it holds. -/
theorem systems_eq_ok_iff (text : List Char) (source : String) (found : List SystemText) :
    DefinitionFile.systems text source = .ok found ↔ HoldsSystems {} text found := by
  have hadvances : systemAndBreaks.advances = true := by decide
  rw [systems_eq_ok_iff_read]
  constructor
  · rintro ⟨parts, rest, hfile, rfl⟩
    obtain ⟨breaks, middle, systems, last, hbreaks, hsystems, hlast, -, heq⟩ :=
      read_unitsFile_iff.mp hfile
    obtain rfl : parts = _ := by simpa using heq
    obtain ⟨hplain, rfl, hgap, hpadding⟩ := of_read_breaks_afterGap hbreaks
    rw [ofFile_unitsFile breaks systems hplain]
    refine HoldsSystems.padded ?_ hpadding.symm
    obtain ⟨-, rfl, rfl⟩ | ⟨-, hrepeats⟩ :=
      (Pattern.afterGap_spacedMany_iff _ hadvances).mp hsystems
    · rw [gap_of_isSolid _ (isSolid_gap middle)] at hlast
      exact .done (by rw [hpadding, ← hgap]; exact hlast)
    · exact holdsSystems_of_repeats hrepeats hlast (hgap.trans hpadding.symm)
  · intro h
    obtain ⟨breaks, middle, hbreaks⟩ := exists_read_breaks text
    obtain ⟨hplain, htext, hgap, hpadding⟩ := of_read_breaks_afterGap hbreaks
    obtain ⟨systems, last, hrepeats, hlast, rfl⟩ := h.exists_repeats htext hgap
    obtain hsystems | ⟨rfl, rfl, hsystems⟩ := hrepeats.afterGap_spacedMany hadvances
    · exact ⟨_, _, read_unitsFile_iff.mpr ⟨_, _, _, _, hbreaks, hsystems, hlast, rfl, rfl⟩,
        ofFile_unitsFile breaks systems hplain _⟩
    · have hend : (gap (gap last).2).2 = [] := by
        rw [gap_of_isSolid _ (isSolid_gap last), hlast]
      exact ⟨_, _, read_unitsFile_iff.mpr ⟨_, _, _, _, hbreaks, hsystems, hend, rfl, rfl⟩,
        ofFile_unitsFile breaks _ hplain _⟩

/-- The definitions of systems are those of the first and then those of the others. -/
theorem ofTexts_cons_eq_ok_iff (source : String) (system : SystemText) (systems : List SystemText)
    (ds : List Definition) : Definition.ofTexts source (system :: systems) = .ok ds ↔
      ∃ d others, Definition.ofText source system = .ok d ∧
        Definition.ofTexts source systems = .ok others ∧ ds = d :: others := by
  rw [Definition.ofTexts]
  cases Definition.ofText source system with
  | error complaint => simp
  | ok d => cases Definition.ofTexts source systems <;> simp [Except.map, eq_comm]

/-- The definitions of a text are those of the systems that it holds, if it is not too large. -/
theorem parse_eq_ok_iff (text : String) (source : Option String) (limits : Limits)
    (ds : List Definition) : DefinitionFile.parse text source limits = .ok ds ↔
      text.utf8ByteSize ≤ limits.maxDefinitionBytes ∧ ∃ found, HoldsSystems {} text.toList found ∧
        Definition.ofTexts (source.getD DefinitionFile.unnamedSource) found = .ok ds := by
  simp only [DefinitionFile.parse, ← systems_eq_ok_iff _ (source.getD DefinitionFile.unnamedSource)]
  split
  · next hlarge => simp [Nat.not_le.mpr hlarge]
  · next hsmall =>
    rw [and_iff_right (Nat.not_lt.mp hsmall)]
    cases DefinitionFile.systems text.toList (source.getD DefinitionFile.unnamedSource) with
    | error complaint => simp
    | ok found =>
      cases hds : Definition.ofTexts (source.getD DefinitionFile.unnamedSource) found <;> simp [hds]

end UnitSystems
