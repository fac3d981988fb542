import Mathlib.Logic.Relation
import UnitSystems.Proofs.DefinitionFile.Relayout

/-!
# Edits of the layout of a file

Blanks and comments before a line break, blank and comment lines and indentation behind it, and the
carriage return of another system change nothing but the spans of the definitions. Each such edit of
a line break outside the quoted texts leaves the declarations of all systems as they are, and so
does any number of them.
-/

namespace UnitSystems

open Grammar

/-- Whether each character of a text lies in a quoted text of the file that it is read as. -/
def DefinitionFile.quotedChars (text : List Char) : List Bool :=
  ((Form.unitsFile.read text).map fun reading => Piece.quotedOf reading.1).getD []

/-- A line break of a definition file that lies outside the quoted texts. -/
def IsOpenBreak (before : List Char) (c : Char) (after : List Char) : Prop :=
  isLineBreak c = true ∧
    (DefinitionFile.quotedChars (before ++ c :: after))[before.length]? = some false

instance (before : List Char) (c : Char) (after : List Char) :
    Decidable (IsOpenBreak before c after) :=
  inferInstanceAs (Decidable (_ ∧ _))

/-- One edit of the layout at a line break outside the quoted texts: blanks or a comment before it,
blank lines, comment lines or indentation behind it, or a carriage return for a line feed. Behind
the last line break of a text the last comment needs no line break. -/
inductive LayoutEdit : List Char → List Char → Prop
  | space {before space after : List Char} {c : Char} (hopen : IsOpenBreak before c after)
      (hspace : IsGap space) : LayoutEdit (before ++ c :: after) (before ++ (space ++ c :: after))
  | padding {before padding after : List Char} {c : Char} (hopen : IsOpenBreak before c after)
      (hpadding : isPadding false padding = true) :
      LayoutEdit (before ++ c :: after) (before ++ c :: (padding ++ after))
  | ending {before padding : List Char} {c : Char} (hopen : IsOpenBreak before c [])
      (hpadding : afterPadding padding = []) : LayoutEdit (before ++ [c]) (before ++ c :: padding)
  | carriageReturn {before after : List Char} (hopen : IsOpenBreak before '\n' after) :
      LayoutEdit (before ++ '\n' :: after) (before ++ '\r' :: '\n' :: after)

/-- A file is read with the same content when an open line break is laid out anew. -/
theorem IsOpenBreak.exists_read {before after space behind rest : List Char} {c d : Char}
    {parts : List (Piece Part)} (h : IsOpenBreak before c after) (hd : isLineBreak d = true)
    (hspace : IsGap space) (hpadding : afterPadding behind = afterPadding after)
    (hread : Form.unitsFile.read (before ++ c :: after) =
      some ([.branch .unitsFile parts], rest)) :
    ∃ others last, Form.unitsFile.read (before ++ (space ++ d :: behind)) =
        some ([.branch .unitsFile others], last) ∧
      Piece.contentOf parts = Piece.contentOf others := by
  let e : LineEdit :=
    { old := c, after := after, new := d, behind := behind, isLineBreak_old := h.1,
      isLineBreak_new := hd, padding := hpadding }
  have hmeets : e.Meets (before ++ c :: after) (before ++ (space ++ d :: behind)) :=
    .before before hspace
  refine exists_read_unitsFile e hmeets hread fun text htext => ?_
  obtain rfl : before = text := List.append_inj_left' htext rfl
  have hquoted := h.2
  rw [DefinitionFile.quotedChars, hread, Option.map_some, Option.getD_some] at hquoted
  rw [hquoted]
  exact fun heq => Bool.false_ne_true (Option.some.inj heq)

/-- A file is read with the same content after an edit of its layout. -/
theorem LayoutEdit.exists_read {text other rest : List Char} {parts : List (Piece Part)}
    (h : LayoutEdit text other)
    (hread : Form.unitsFile.read text = some ([.branch .unitsFile parts], rest)) :
    ∃ others last, Form.unitsFile.read other = some ([.branch .unitsFile others], last) ∧
      Piece.contentOf parts = Piece.contentOf others := by
  cases h with
  | space hopen hspace => exact hopen.exists_read hopen.1 hspace rfl hread
  | @padding before padding after c hopen hpadding =>
    have hbehind := pastPadding_append_of_isPadding false padding after hpadding
    have hedit := hopen.exists_read hopen.1 (rfl : IsGap []) hbehind hread
    exact hedit
  | ending hopen hpadding =>
    have hedit := hopen.exists_read hopen.1 (rfl : IsGap []) hpadding hread
    exact hedit
  | @carriageReturn before after hopen =>
    have hbehind := pastPadding_lineBreak false '\n' after rfl
    have hedit := hopen.exists_read (rfl : isLineBreak '\r' = true) (rfl : IsGap []) hbehind hread
    exact hedit

namespace SystemText

/-- What a system declares, wherever it stands: its name and its directives. -/
def declared (system : SystemText) : String × List Directive :=
  (system.name, system.directives.map (·.2))

/-- What the pieces inside a system declare. -/
def declaredIn (inside : List (Piece Part)) : String × List Directive :=
  (Directive.leafString .identifier ((branch? .systemName inside).getD []),
    inside.filterMap Directive.ofPiece?)

/-- What is declared is read off the content. -/
theorem declaredIn_contentOf (inside : List (Piece Part)) :
    declaredIn (Piece.contentOf inside) = declaredIn inside := by
  rw [declaredIn, declaredIn, Directive.ofPiece?_contentOf, branch?_contentOf]
  cases branch? .systemName inside with
  | none => rfl
  | some parts =>
    rw [Option.map_some, Option.getD_some, Option.getD_some,
      Directive.leafString_contentOf .identifier (by decide)]

/-- The systems among pieces declare what their pieces do. -/
theorem map_declared_systemsOf (start : Place) (parts : List (Piece Part)) :
    (systemsOf start parts).map declared = (branches .system parts).map declaredIn := by
  induction parts generalizing start with
  | nil => rfl
  | cons piece parts ih =>
    cases piece with
    | plain => exact ih _
    | leaf => exact ih _
    | branch name inside =>
      by_cases hname : name = .system
      · subst hname
        have hfirst : (ofParts start inside).declared = declaredIn inside :=
          congrArg (Prod.mk _) (map_directivesOf start inside)
        rw [branches, if_pos rfl, List.map_cons, ← ih, ← hfirst]
        rfl
      · rw [branches, if_neg hname, ← ih (start.after (Piece.branch name inside).text)]
        simp [systemsOf, located, ofLocated?, hname]

/-- Files with the same content declare the same. -/
theorem map_declared_ofFile {parts others : List (Piece Part)}
    (h : Piece.contentOf parts = Piece.contentOf others) :
    (ofFile parts).map declared = (ofFile others).map declared := by
  have hcontent (parts : List (Piece Part)) : (ofFile parts).map declared =
      (branches .system (Piece.contentOf parts)).map declaredIn := by
    rw [branches_contentOf, List.map_map]
    refine (map_declared_systemsOf {} parts).trans (List.map_congr_left fun inside _ => ?_)
    rw [Function.comp_apply, declaredIn_contentOf]
  rw [hcontent, hcontent, h]

end SystemText

/-- The systems of a file declare the same after an edit of its layout. -/
theorem LayoutEdit.exists_systems {text other : List Char} (h : LayoutEdit text other)
    {source : String} {found : List SystemText}
    (hfound : DefinitionFile.systems text source = .ok found) :
    ∃ others, DefinitionFile.systems other source = .ok others ∧
      others.map SystemText.declared = found.map SystemText.declared := by
  obtain ⟨parts, rest, hread, rfl⟩ := (systems_eq_ok_iff_read _ _ _).mp hfound
  obtain ⟨others, last, hother, hcontent⟩ := h.exists_read hread
  exact ⟨_, (systems_eq_ok_iff_read _ _ _).mpr ⟨others, last, hother, rfl⟩,
    (SystemText.map_declared_ofFile hcontent).symm⟩

/-- The systems of a file declare the same after any number of edits of its layout. -/
theorem exists_systems_of_edits {text other : List Char}
    (h : Relation.ReflTransGen LayoutEdit text other) {source : String} {found : List SystemText}
    (hfound : DefinitionFile.systems text source = .ok found) :
    ∃ others, DefinitionFile.systems other source = .ok others ∧
      others.map SystemText.declared = found.map SystemText.declared := by
  induction h with
  | refl => exact ⟨found, hfound, rfl⟩
  | tail hedits hedit ih =>
    obtain ⟨middle, hmiddle, hdeclared⟩ := ih
    obtain ⟨others, hothers, hsame⟩ := hedit.exists_systems hmiddle
    exact ⟨others, hothers, hsame.trans hdeclared⟩

namespace Definition

/-- A definition without the place where it stands in its file. -/
def withoutSpan (d : Definition) : Definition :=
  { d with span := none }

/-- Systems that declare the same describe the same definition, but for the span. -/
theorem exists_ofText {source : String} {first second : SystemText}
    (h : second.declared = first.declared) {d : Definition} (hd : ofText source first = .ok d) :
    ∃ other, ofText source second = .ok other ∧ other.withoutSpan = d.withoutSpan := by
  obtain ⟨hname, hdirectives⟩ := Prod.mk.inj h
  obtain ⟨happlicable, hnodup, rfl⟩ := (ofText_eq_ok_iff _ _ _).mp hd
  rw [← hdirectives] at happlicable hnodup ⊢
  rw [← hname]
  exact ⟨_, (ofText_eq_ok_iff _ _ _).mpr ⟨happlicable, hnodup, rfl⟩, rfl⟩

/-- Lists of systems that declare the same describe the same definitions, but for the spans. -/
theorem exists_ofTexts {source : String} {first second : List SystemText}
    (h : second.map SystemText.declared = first.map SystemText.declared) {ds : List Definition}
    (hds : ofTexts source first = .ok ds) :
    ∃ others, ofTexts source second = .ok others ∧
      others.map withoutSpan = ds.map withoutSpan := by
  induction first generalizing second ds with
  | nil =>
    obtain rfl := List.map_eq_nil_iff.mp h
    exact ⟨ds, hds, rfl⟩
  | cons system first ih =>
    obtain ⟨other, others, rfl, hother, hothers⟩ := List.map_eq_cons_iff.mp h
    obtain ⟨d, rest, hd, hrest, rfl⟩ := (ofTexts_cons_eq_ok_iff _ _ _ _).mp hds
    obtain ⟨head, hhead, hspan⟩ := exists_ofText hother hd
    obtain ⟨tail, htail, hspans⟩ := ih hothers hrest
    exact ⟨head :: tail, (ofTexts_cons_eq_ok_iff _ _ _ _).mpr ⟨head, tail, hhead, htail, rfl⟩,
      congrArg₂ List.cons hspan hspans⟩

end Definition

/-- An accepted text is accepted after any number of edits of its layout, as long as it is not too
large, and its definitions are the same but for their spans. -/
theorem parse_relaid (text other : String) (source : Option String) (limits : Limits)
    (ds : List Definition) (h : DefinitionFile.parse text source limits = .ok ds)
    (hedits : Relation.ReflTransGen LayoutEdit text.toList other.toList)
    (hbound : other.utf8ByteSize ≤ limits.maxDefinitionBytes) :
    ∃ es, DefinitionFile.parse other source limits = .ok es ∧
      es.map Definition.withoutSpan = ds.map Definition.withoutSpan := by
  obtain ⟨-, found, hfound, hds⟩ := (parse_eq_ok_iff _ _ _ _).mp h
  have hsystems := (systems_eq_ok_iff _ DefinitionFile.unnamedSource _).mpr hfound
  obtain ⟨others, hothers, hdeclared⟩ := exists_systems_of_edits hedits hsystems
  obtain ⟨es, hes, hspans⟩ := Definition.exists_ofTexts hdeclared hds
  exact ⟨es, (parse_eq_ok_iff _ _ _ _).mpr
    ⟨hbound, others, (systems_eq_ok_iff _ _ _).mp hothers, hes⟩, hspans⟩

/-- A list gets a comment behind its comma, the declaration a comment line and indentation below it,
and the last line a carriage return. -/
theorem parse_relaid_motion :
    let text := "system Motion\noutput \"\\\n\"\nunits M,\nS\nscalar f32 = 1\n"
    let other :=
      "system Motion\n\n# now\n  output \"\\\n\"\nunits M, # metre\nS\nscalar f32 = 1\r\n"
    let motion : Definition :=
      { name := "Motion", units := ["M", "S"], output := some "\n", scalarType := "f32",
        identityLiteral := "1", source := some "<input>", span := some ⟨0, 51, 1, 1⟩ }
    DefinitionFile.parse text none {} = .ok [motion] ∧
      Relation.ReflTransGen LayoutEdit text.toList other.toList ∧
      other.utf8ByteSize ≤ ({} : Limits).maxDefinitionBytes ∧
      ∃ es, DefinitionFile.parse other none {} = .ok es ∧
        es.map Definition.withoutSpan = [motion.withoutSpan] := by
  intro text other motion
  have hparse : DefinitionFile.parse text none {} = .ok [motion] :=
    eq_ok_of_toOption _ _ (by decide +kernel)
  have hbound : other.utf8ByteSize ≤ ({} : Limits).maxDefinitionBytes := by decide +kernel
  have hedits : Relation.ReflTransGen LayoutEdit text.toList other.toList :=
    calc text.toList
      _ = "system Motion\noutput \"\\\n\"\nunits M,".toList ++
          '\n' :: "S\nscalar f32 = 1\n".toList := by decide +kernel
      Relation.ReflTransGen LayoutEdit _ ("system Motion\noutput \"\\\n\"\nunits M,".toList ++
          (" # metre".toList ++ '\n' :: "S\nscalar f32 = 1\n".toList)) :=
        .single (.space (by decide +kernel) (by decide +kernel))
      _ = "system Motion".toList ++
          '\n' :: "output \"\\\n\"\nunits M, # metre\nS\nscalar f32 = 1\n".toList := by
        decide +kernel
      Relation.ReflTransGen LayoutEdit _ ("system Motion".toList ++ '\n' :: ("\n# now\n  ".toList ++
          "output \"\\\n\"\nunits M, # metre\nS\nscalar f32 = 1\n".toList)) :=
        .single (.padding (by decide +kernel) (by decide +kernel))
      _ = "system Motion\n\n# now\n  output \"\\\n\"\nunits M, # metre\nS\nscalar f32 = 1".toList ++
          ['\n'] := by decide +kernel
      Relation.ReflTransGen LayoutEdit _
          ("system Motion\n\n# now\n  output \"\\\n\"\nunits M, # metre\nS\nscalar f32 = 1".toList ++
            ['\r', '\n']) := .single (.carriageReturn (by decide +kernel))
      _ = other.toList := by decide +kernel
  exact ⟨hparse, hedits, hbound, parse_relaid _ _ none {} _ hparse hedits hbound⟩

end UnitSystems
