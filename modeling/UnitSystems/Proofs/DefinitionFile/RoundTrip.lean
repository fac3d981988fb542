import Mathlib.Data.String.Basic
import UnitSystems.Proofs.DefinitionFile.Systems

/-!
# Reading back what was written

A written file is read as its definitions in order, each with the source it came from and with the
span of its lines. The spans follow from the pieces: since the pieces of a system hold exactly its
lines, the next system begins after them and one line feed.
-/

namespace UnitSystems

open Grammar

/-- Definitions with the source and the spans that they have in their written file. -/
def Definition.placed (source : String) (start : Place) : List Definition → List Definition
  | [] => []
  | d :: ds =>
    { d with source := some source, span := some (.covering start d.written) } ::
      placed source (start.after (d.written ++ ['\n'])) ds

/-- The empty gap holds no system and takes no place. -/
theorem systemsOf_gap (start : Place) (parts : List (Piece Part)) :
    SystemText.systemsOf start (.plain [] :: parts) = SystemText.systemsOf start parts := rfl

/-- The pieces of a system and of the line feed after it. -/
def systemPieces (inside : List (Piece Part)) : List (Piece Part) :=
  [.branch .system inside, .plain [], .plain ['\n']]

/-- The pieces of a system and its line feed hold one system. -/
theorem systemsOf_systemPieces (start : Place) (inside : List (Piece Part)) :
    SystemText.systemsOf start (systemPieces inside) = [SystemText.ofParts start inside] := rfl

/-- The pieces of the systems of a file, from the place where the first one begins, describe the
definitions that the systems were written from. -/
theorem ofTexts_systemsOf (source : String) (inside : Definition → List (Piece Part))
    (ds : List Definition) (hds : ∀ d ∈ ds, d.IsWritable)
    (hname : ∀ d ∈ ds,
      Directive.leafString .identifier ((branch? .systemName (inside d)).getD []) = d.name)
    (hdirectives : ∀ d ∈ ds, (inside d).filterMap Directive.ofPiece? = d.directives)
    (htext : ∀ d ∈ ds, Piece.textOf (inside d) = d.written) (start : Place) :
    Definition.ofTexts source (SystemText.systemsOf start
        (ds.flatMap fun d => .plain [] :: systemPieces (inside d))) =
      .ok (Definition.placed source start ds) := by
  induction ds generalizing start with
  | nil => rfl
  | cons d ds ih =>
    have hd : d ∈ d :: ds := List.mem_cons_self
    have hrest (e : Definition) (he : e ∈ ds) : e ∈ d :: ds := List.mem_cons_of_mem d he
    have hlines : Piece.textOf (.plain [] :: systemPieces (inside d)) = d.written ++ ['\n'] := by
      simp [systemPieces, Piece.textOf, Piece.text, htext d hd]
    have hsystem : Definition.ofText source (SystemText.ofParts start (inside d)) =
        .ok { d with source := some source, span := some (.covering start d.written) } := by
      have happlied := applyAll_directives d (hds d hd) source
        (SystemText.directivesOf start (inside d))
        ((map_directivesOf start (inside d)).trans (hdirectives d hd))
      simp only [Definition.ofText, SystemText.ofParts, hname d hd, htext d hd, happlied,
        Except.map]
    rw [List.flatMap_cons, systemsOf_append, systemsOf_gap, systemsOf_systemPieces, hlines,
      List.singleton_append, Definition.ofTexts, hsystem]
    simp only [ih (fun e he => hds e (hrest e he)) (fun e he => hname e (hrest e he))
      (fun e he => hdirectives e (hrest e he)) (fun e he => htext e (hrest e he)), Except.map,
      Definition.placed]

/-- A file holds no gap before its first system. -/
theorem systemsOf_spacedPieces (start : Place) (inside : Definition → List (Piece Part))
    (ds : List Definition) :
    SystemText.systemsOf start (spacedPieces (fun d => systemPieces (inside d)) ds) =
      SystemText.systemsOf start (ds.flatMap fun d => .plain [] :: systemPieces (inside d)) := by
  cases ds <;> rfl

/-- A system and the line feed after it are read up to the next system. -/
theorem read_systemAndBreak (d : Definition) (inside : List (Piece Part)) (more : List Char)
    (hmore : StartsSystem more)
    (hread : Form.system.read (d.written ++ '\n' :: more) =
      some ([.branch .system inside], '\n' :: more)) :
    (Pattern.spaced Form.system (.spacedMany Form.lineBreak)).read
        (d.written ++ '\n' :: more) = some (systemPieces inside, more) := by
  have hsolid := isSolid_of_startsSystem more hmore
  have hnext : afterGap Form.lineBreak.read more = none := by
    simp only [afterGap, gap_of_isSolid more hsolid, read_lineBreak_of_startsSystem more hmore,
      Option.map_none]
  have hstop : rounds (afterGap Form.lineBreak.read) more more = ([], more) := by
    obtain rfl | ⟨rest, hrest⟩ := hmore
    · rfl
    · cases more with
      | nil => rfl
      | cons c more => simp only [rounds, hnext]
  have hfeed : Form.lineBreak.read ('\n' :: more) = some ([.plain ['\n']], more) := rfl
  have hbreaks : (Pattern.spacedMany Form.lineBreak).read ('\n' :: more) =
      some ([.plain ['\n']], more) := by
    simp only [Pattern.read, hfeed, hstop, List.append_nil]
  exact Pattern.read_spaced _ _ _ _ _ _ [] _ _ hread
    (gap_of_isSolid _ (isSolid_cons _ _ rfl (by decide))) hbreaks

/-- A system begins where the lines of a definition do. -/
theorem startsSystem_written (d : Definition) (more : List Char) :
    StartsSystem (d.written ++ more) := by
  refine .inr ⟨d.name.toList ++
    ((d.directives.flatMap fun directive => '\n' :: directive.written) ++ more), ?_⟩
  rw [Definition.written_eq]
  simp only [List.append_assoc, List.cons_append, List.nil_append]

/-- A system or the end stands where the lines of definitions do. -/
theorem startsSystem_lines (ds : List Definition) :
    StartsSystem (ds.flatMap fun d => d.written ++ ['\n']) := by
  cases ds with
  | nil => exact .inl rfl
  | cons d ds =>
    rw [List.flatMap_cons, List.append_assoc]
    exact startsSystem_written d _

/-- The pieces inside a whole file. -/
def filePieces (systems : List (Piece Part)) : List (Piece Part) :=
  .plain [] :: .plain [] :: .plain [] :: (systems ++ [.plain [], .leaf .endOfText []])

/-- A written file is read to its end, one system after the other. -/
theorem read_unitsFile (ds : List Definition) (inside : Definition → List (Piece Part))
    (hread : ∀ d ∈ ds, ∀ more, StartsSystem more →
      Form.system.read (d.written ++ '\n' :: more) =
        some ([.branch .system (inside d)], '\n' :: more)) :
    Form.unitsFile.read (ds.flatMap fun d => d.written ++ ['\n']) =
      some ([.branch .unitsFile
        (filePieces (spacedPieces (fun d => systemPieces (inside d)) ds))], []) := by
  have hstart := startsSystem_lines ds
  have hgap := gap_of_isSolid _ (isSolid_of_startsSystem _ hstart)
  have hsystems := Pattern.read_spacedMany (.spaced Form.system (.spacedMany Form.lineBreak))
    (fun d : Definition => d.written ++ ['\n']) (fun d => systemPieces (inside d)) StartsSystem ds
    [] (.inl rfl) rfl isSolid_of_startsSystem
    (fun d _ more => List.append_assoc d.written _ _ ▸ startsSystem_written d _)
    (fun d hd more hmore => by
      rw [List.append_assoc, List.singleton_append]
      exact read_systemAndBreak d (inside d) more hmore (hread d hd more hmore))
    (fun d _ => by simp)
  rw [List.append_nil] at hsystems
  have hend := Pattern.read_spaced _ Form.endOfText _ _ _ _ [] _ _ hsystems
    (gap_of_isSolid [] isSolid_nil) (rfl : Form.endOfText.read [] = some ([.leaf .endOfText []], []))
  have hbreaks : (Pattern.spacedMany Form.lineBreak).read
      (ds.flatMap fun d => d.written ++ ['\n']) =
        some ([], ds.flatMap fun d => d.written ++ ['\n']) := by
    simp only [Pattern.read, read_lineBreak_of_startsSystem _ hstart]
  exact Pattern.read_branch _ _ _ _ _ (Pattern.read_spaced _ _ _ _ _ _ [] [.plain []] _ rfl hgap
    (Pattern.read_spaced _ _ _ _ _ _ [] [] _ hbreaks hgap hend))

/-- Reading the written form of any definitions gives exactly these definitions, in order, with
their source and their spans. -/
theorem parse_written (ds : List Definition) (source : Option String) (limits : Limits)
    (hds : ∀ d ∈ ds, d.IsWritable)
    (hbound : (DefinitionFile.written ds).utf8ByteSize ≤ limits.maxDefinitionBytes) :
    DefinitionFile.parse (DefinitionFile.written ds) source limits =
      .ok (Definition.placed (source.getD DefinitionFile.unnamedSource) {} ds) := by
  have : Nonempty (List (Piece Part)) := ⟨[]⟩
  choose! inside hname hdirectives htext hread using fun d (hd : d ∈ ds) =>
    exists_read_system d (hds d hd)
  have hfile := read_unitsFile ds inside hread
  have hsystems (name : String) :
      DefinitionFile.systems (DefinitionFile.written ds).toList name = .ok (SystemText.systemsOf {}
        (ds.flatMap fun d => .plain [] :: systemPieces (inside d))) := by
    have htail (start : Place) :
        SystemText.systemsOf start [.plain [], .leaf .endOfText []] = [] := rfl
    rw [DefinitionFile.systems, DefinitionFile.written, String.toList_ofList, readBranch, hfile]
    show Except.ok (SystemText.systemsOf {} (filePieces _)) = _
    rw [filePieces, systemsOf_gap, systemsOf_gap, systemsOf_gap, systemsOf_append, htail,
      List.append_nil, systemsOf_spacedPieces]
  simp only [DefinitionFile.parse, if_neg (Nat.not_lt.mpr hbound), hsystems,
    ofTexts_systemsOf _ inside ds hds hname hdirectives htext]

/-- A definition with every directive, whose texts look like other parts of a file. -/
def escapedDefinition : Definition where
  name := "systematic"
  output := some "a\"b\\n\r\n, #c"
  units := ["Units", "_1"]
  symbols := ["\\", "\"", "\n", "\r\n\t", "", "\\n"]
  constants := ["root2"]
  scalarType := "::std::primitive::f64"
  identityLiteral := "\" = , \\"
  unitlessConstant := "extras"
  allowedRoot := Int64.minValue
  extraConstants := [⟨"tau", "system 2"⟩, ⟨"tau", "="⟩]

/-- Two copies of a definition full of escapes are read back from their written form. -/
theorem parse_written_escapedDefinition :
    (∀ d ∈ [escapedDefinition, escapedDefinition], d.IsWritable) ∧
      (DefinitionFile.written [escapedDefinition, escapedDefinition]).utf8ByteSize ≤ 1000 ∧
      DefinitionFile.parse (DefinitionFile.written [escapedDefinition, escapedDefinition]) none
          { maxDefinitionBytes := 1000 } =
        .ok (Definition.placed "<input>" {} [escapedDefinition, escapedDefinition]) := by
  have hwritable : escapedDefinition.IsWritable :=
    { name := by decide
      units := by decide
      constants := by decide
      unitlessConstant := by decide
      scalarType := ⟨_, rfl⟩
      identityLiteral := by decide
      extraConstants := by decide }
  have hall : ∀ d ∈ [escapedDefinition, escapedDefinition], d.IsWritable := by
    simpa using hwritable
  have hsize : (DefinitionFile.written
      [escapedDefinition, escapedDefinition]).utf8ByteSize ≤ 1000 := by
    rw [DefinitionFile.written, String.utf8ByteSize_ofList]
    decide +kernel
  exact ⟨hall, hsize, parse_written _ none { maxDefinitionBytes := 1000 } hall hsize⟩

end UnitSystems
