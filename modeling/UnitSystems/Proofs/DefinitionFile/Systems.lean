import UnitSystems.Proofs.DefinitionFile.Applied
import UnitSystems.Proofs.DefinitionFile.Arguments

/-!
# Reading written systems

The lines of a written definition are read as one system: its name, and a directive for every
further line. The system ends before the line feed after its last line when the next system or
the end of the text follows, because no directive can be read there.
-/

namespace UnitSystems

open Grammar

/-- The lines of a definition begin with the word of a system and a blank. -/
theorem Definition.written_eq (d : Definition) :
    d.written = "system".toList ++ [' '] ++ d.name.toList ++
      d.directives.flatMap fun directive => '\n' :: directive.written :=
  -- the closed texts are compared by evaluation, which rewriting would do at every other place
  congrArg (fun word => word ++ d.name.toList ++
    d.directives.flatMap fun directive => '\n' :: directive.written)
    (by decide : "system ".toList = "system".toList ++ [' '])

/-- Where a system or the end of the text stands. -/
def StartsSystem (text : List Char) : Prop :=
  text = [] ∨ ∃ more, text = "system".toList ++ ' ' :: more

/-- Where a line feed stands. -/
def EndsLine (text : List Char) : Prop :=
  ∃ more, text = '\n' :: more

/-- No gap begins with a line feed. -/
theorem isSolid_of_endsLine (text : List Char) (h : EndsLine text) : IsSolid text := by
  obtain ⟨more, rfl⟩ := h
  exact isSolid_cons _ _ rfl (by decide)

/-- No gap stands before a system. -/
theorem isSolid_of_startsSystem (text : List Char) (h : StartsSystem text) : IsSolid text := by
  obtain rfl | ⟨more, rfl⟩ := h
  · exact isSolid_nil
  · exact isSolid_cons _ _ rfl (by decide)

/-- No line break stands before a system. -/
theorem read_lineBreak_of_startsSystem (text : List Char) (h : StartsSystem text) :
    Form.lineBreak.read text = none := by
  obtain rfl | ⟨more, rfl⟩ := h <;> rfl

/-- No directive stands where a system does. -/
theorem read_directive_of_startsSystem (text : List Char) (h : StartsSystem text) :
    Form.directive.read text = none := by
  obtain rfl | ⟨more, rfl⟩ := h
  · rfl
  · exact read_directive_of_stands_system _ rfl

/-- The pieces of one line feed among line breaks. -/
def breakPieces : List (Piece Part) :=
  [.plain ['\n'], .plain []]

/-- One line feed is read where no other line break follows. -/
theorem read_lineBreaks (text : List Char) (hsolid : IsSolid text)
    (hbreak : Form.lineBreak.read text = none) :
    Form.lineBreaks.read ('\n' :: text) = some (breakPieces, text) :=
  Pattern.read_spaced _ _ _ text text _ [] [.plain ['\n']] [] rfl (gap_of_isSolid text hsolid)
    (by simp only [Pattern.read, hbreak])

/-- A directive stands on a line of its own. -/
def line : Pattern Part :=
  .spaced Form.lineBreaks Form.directive

/-- The pieces of the line of a directive. -/
def linePieces (piece : Piece Part) : List (Piece Part) :=
  breakPieces ++ .plain [] :: [piece]

/-- No further line is read where a system follows. -/
theorem read_line_eq_none (text : List Char) (h : StartsSystem text) :
    line.read ('\n' :: text) = none := by
  have hsolid := isSolid_of_startsSystem text h
  simp only [line, Pattern.read, afterGap, gap_of_isSolid text hsolid,
    read_lineBreaks text hsolid (read_lineBreak_of_startsSystem text h),
    read_directive_of_startsSystem text h, Option.map_none]

/-- No gap and no line break stand before the line of a directive. -/
theorem written_start (directive : Directive) (text : List Char) :
    IsSolid (directive.written ++ text) ∧
      Form.lineBreak.read (directive.written ++ text) = none := by
  have hword : directive.word ∈ keywords := by
    cases directive <;> (simp only [Directive.word]; decide)
  obtain ⟨c, more, heq, hblank, hcomment, hbreak, -⟩ := keywords_start _ hword
  rw [Directive.written, heq]
  exact ⟨isSolid_cons _ _ hblank hcomment, read_lineBreak_eq_none _ _ hbreak⟩

/-- What the directives among located pieces are does not depend on their places. -/
theorem map_directivesOf (start : Place) (parts : List (Piece Part)) :
    (SystemText.directivesOf start parts).map (·.2) = parts.filterMap Directive.ofPiece? := by
  unfold SystemText.directivesOf
  induction parts generalizing start with
  | nil => rfl
  | cons piece parts ih =>
    simp only [located, List.filterMap_cons]
    cases Directive.ofPiece? piece with
    | none => exact ih _
    | some directive => simp [ih]

/-- The pieces of the declaration that begins a system. -/
def nameParts (name : String) : List (Piece Part) :=
  [.leaf .systemWord "system".toList, .plain [' '], .leaf .identifier name.toList]

/-- The pieces inside a system whose directives are read as given pieces. -/
def systemParts (d : Definition) (piece : Directive → Piece Part) : List (Piece Part) :=
  .branch .systemName (nameParts d.name) :: .plain [] ::
    spacedPieces (fun directive => linePieces (piece directive)) d.directives

/-- The name of a system is found among its pieces. -/
theorem name_systemParts (d : Definition) (piece : Directive → Piece Part) :
    Directive.leafString .identifier ((branch? .systemName (systemParts d piece)).getD []) =
      d.name := by
  rw [show branch? .systemName (systemParts d piece) = some (nameParts d.name) from rfl,
    Option.getD_some]
  exact String.ofList_toList

/-- The directives of a system are found among its pieces. -/
theorem directives_systemParts (d : Definition) (piece : Directive → Piece Part)
    (h : ∀ directive ∈ d.directives, Directive.ofPiece? (piece directive) = some directive) :
    (systemParts d piece).filterMap Directive.ofPiece? = d.directives := by
  have hplain (text : List Char) : Directive.ofPiece? (.plain text) = none := rfl
  have hsingle (directive : Directive) (hmem : directive ∈ d.directives) :
      (linePieces (piece directive)).filterMap Directive.ofPiece? = [directive] := by
    simp only [linePieces, breakPieces, List.cons_append, List.nil_append, List.filterMap_cons,
      List.filterMap_nil, hplain, h directive hmem]
  have hfind := find_spacedPieces (List.filterMap Directive.ofPiece?) rfl rfl
    (fun _ _ => List.filterMap_append)
    (fun directive => linePieces (piece directive)) d.directives
  rw [systemParts, List.filterMap_cons_none rfl, List.filterMap_cons_none rfl, hfind,
    List.flatMap_def, List.map_congr_left hsingle, ← List.flatMap_def]
  exact List.flatMap_singleton' _

/-- A line feed stands where a system goes on or ends. -/
theorem endsLine_lines (directives : List Directive) (more : List Char) :
    EndsLine ((directives.flatMap fun directive => '\n' :: directive.written) ++
      '\n' :: more) := by
  cases directives with
  | nil => exact ⟨more, rfl⟩
  | cons first rest => exact ⟨_, rfl⟩

/-- The lines of directives are read one after the other up to the next system. -/
theorem read_lines (d : Definition) (piece : Directive → Piece Part)
    (hread : ∀ directive ∈ d.directives, ∀ more,
      Form.directive.read (directive.written ++ '\n' :: more) =
        some ([piece directive], '\n' :: more))
    (more : List Char) (hmore : StartsSystem more) :
    (Pattern.spacedMany line).read
        ((d.directives.flatMap fun directive => '\n' :: directive.written) ++ '\n' :: more) =
      some (spacedPieces (fun directive => linePieces (piece directive)) d.directives,
        '\n' :: more) := by
  refine Pattern.read_spacedMany line _ _ EndsLine d.directives _ ⟨more, rfl⟩
    (read_line_eq_none more hmore) isSolid_of_endsLine (fun _ _ _ => ⟨_, rfl⟩) ?_
    (fun _ _ => List.cons_ne_nil _ _)
  rintro directive hdirective _ ⟨rest, rfl⟩
  obtain ⟨hsolid, hbreak⟩ := written_start directive ('\n' :: rest)
  exact Pattern.read_spaced _ _ _ _ _ _ [] _ _ (read_lineBreaks _ hsolid hbreak)
    (gap_of_isSolid _ hsolid) (hread directive hdirective rest)

/-- The lines of a written definition are read as one system. -/
theorem read_system (d : Definition) (hd : d.IsWritable) (piece : Directive → Piece Part)
    (hread : ∀ directive ∈ d.directives, ∀ more,
      Form.directive.read (directive.written ++ '\n' :: more) =
        some ([piece directive], '\n' :: more))
    (more : List Char) (hmore : StartsSystem more) :
    Form.system.read (d.written ++ '\n' :: more) =
      some ([.branch .system (systemParts d piece)], '\n' :: more) := by
  have hend := endsLine_lines d.directives more
  have hname : Form.systemName.read ("system".toList ++ ' ' :: (d.name.toList ++
      ((d.directives.flatMap fun directive => '\n' :: directive.written) ++ '\n' :: more))) =
      some ([.branch .systemName (nameParts d.name)],
        (d.directives.flatMap fun directive => '\n' :: directive.written) ++ '\n' :: more) := by
    obtain ⟨rest, hrest⟩ := hend
    have hread := read_name d.name hd.name '\n' (by decide) rest
    rw [hrest]
    exact read_declaration .systemName .systemWord "system" (by decide) Form.identifier _ _ _
      (IsName.isSolid d.name hd.name _) hread
  have htext : d.written ++ '\n' :: more = "system".toList ++ ' ' :: (d.name.toList ++
      ((d.directives.flatMap fun directive => '\n' :: directive.written) ++ '\n' :: more)) := by
    rw [Definition.written_eq]
    simp only [List.append_assoc, List.cons_append, List.nil_append]
  rw [htext]
  exact Pattern.read_branch _ _ _ _ _ (Pattern.read_spaced _ _ _ _ _ _ [] _ _ hname
    (gap_of_isSolid _ (isSolid_of_endsLine _ hend)) (read_lines d piece hread more hmore))

/-- A written definition is read as a system with its name and its directives, whose pieces hold
exactly its lines. -/
theorem exists_read_system (d : Definition) (hd : d.IsWritable) :
    ∃ inside, Directive.leafString .identifier ((branch? .systemName inside).getD []) = d.name ∧
      inside.filterMap Directive.ofPiece? = d.directives ∧ Piece.textOf inside = d.written ∧
      ∀ more, StartsSystem more → Form.system.read (d.written ++ '\n' :: more) =
        some ([.branch .system inside], '\n' :: more) := by
  have : Nonempty (Piece Part) := ⟨.plain []⟩
  choose! piece hmeaning hread using fun directive (h : directive ∈ d.directives) =>
    read_written directive (hd.directives d directive h)
  have hsystem := read_system d hd piece hread
  refine ⟨systemParts d piece, name_systemParts d piece, directives_systemParts d piece hmeaning,
    ?_, hsystem⟩
  have hlossless := Form.system.lossless _ _ _ (hsystem [] (.inl rfl))
  simp only [Piece.textOf, Piece.text, List.append_nil] at hlossless
  exact List.append_cancel_right hlossless

/-- The pieces of two runs stand at their places one after the other. -/
theorem located_append (start : Place) (first second : List (Piece Part)) :
    located start (first ++ second) =
      located start first ++ located (start.after (Piece.textOf first)) second := by
  induction first generalizing start with
  | nil => rfl
  | cons piece first ih =>
    simp only [List.cons_append, located, ih, Piece.textOf, Place.after_append]

/-- The system that a located piece was read as. -/
def SystemText.ofLocated? (entry : Place × Piece Part) : Option SystemText :=
  match entry.2 with
  | .branch .system inside => some (SystemText.ofParts entry.1 inside)
  | _ => none

/-- The systems among pieces. -/
def SystemText.systemsOf (start : Place) (parts : List (Piece Part)) : List SystemText :=
  (located start parts).filterMap SystemText.ofLocated?

/-- The systems of two runs of pieces stand one after the other. -/
theorem systemsOf_append (start : Place) (first second : List (Piece Part)) :
    SystemText.systemsOf start (first ++ second) = SystemText.systemsOf start first ++
      SystemText.systemsOf (start.after (Piece.textOf first)) second := by
  simp only [SystemText.systemsOf, located_append, List.filterMap_append]

end UnitSystems
