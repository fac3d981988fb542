import UnitSystems.Proofs.DefinitionFile.Files
import UnitSystems.Proofs.Text.Places

/-!
# Files one after the other

Two texts with a line feed between them hold the systems of the first and then those of the second,
whatever the first one ends with: a list that could go on, a comment, a scalar type without a
literal. Only the spans of the second text move, by the bytes and the lines before it.
-/

namespace UnitSystems

open Grammar

/-- A place in a text that other text was put in front of, which ends with a line feed. -/
def Place.moved (bytes lines : Nat) (p : Place) : Place :=
  ⟨p.offset + bytes, p.line + lines, p.column⟩

/-- A span in a text that other text was put in front of, which ends with a line feed. -/
def Span.moved (bytes lines : Nat) (span : Span) : Span :=
  ⟨span.start + bytes, span.stop + bytes, span.line + lines, span.column⟩

/-- A system in a text that other text was put in front of. -/
def SystemText.moved (bytes lines : Nat) (system : SystemText) : SystemText where
  name := system.name
  directives := system.directives.map fun entry => (entry.1.moved bytes lines, entry.2)
  span := system.span.moved bytes lines

/-- A definition from a text that other text was put in front of: its span moves, and nothing else
changes. -/
def Definition.moved (bytes lines : Nat) (d : Definition) : Definition :=
  { d with span := d.span.map (Span.moved bytes lines) }

namespace Place

variable (bytes lines : Nat)

/-- The place after more text moves along. -/
theorem moved_after (p : Place) (text : List Char) :
    (p.moved bytes lines).after text = (p.after text).moved bytes lines := by
  have hnext (p : Place) (c : Char) :
      (p.moved bytes lines).next c = (p.next c).moved bytes lines := by
    simp only [next, moved]
    split <;> simp only [Nat.add_right_comm]
  induction text generalizing p with
  | nil => rfl
  | cons c text ih => rw [after_cons, after_cons, hnext, ih]

/-- Behind a text and a line feed, everything moves by the bytes and the lines of both. -/
theorem after_lineFeed (text : List Char) : Place.after {} (text ++ ['\n']) =
    Place.moved (String.utf8Len text + 1) (text.count '\n' + 1) {} := by
  obtain ⟨hoffset, hline⟩ := after_eq {} text
  have hsize : '\n'.utf8Size = 1 := by decide
  rw [after_append, after_cons, after_nil, next, if_pos rfl, hoffset, hline, hsize, moved]
  simp only [Nat.zero_add, Nat.add_assoc, Nat.add_comm 1]

end Place

section

variable (bytes lines : Nat)

/-- The span of a moved text moves. -/
theorem covering_moved (start : Place) (text : List Char) :
    Span.covering (start.moved bytes lines) text =
      (Span.covering start text).moved bytes lines := by
  simp only [Span.covering, Place.moved_after]
  rfl

/-- The directives of a moved system move. -/
theorem directivesOf_moved (start : Place) (parts : List (Piece Part)) :
    SystemText.directivesOf (start.moved bytes lines) parts =
      (SystemText.directivesOf start parts).map fun entry =>
        (entry.1.moved bytes lines, entry.2) := by
  unfold SystemText.directivesOf
  induction parts generalizing start with
  | nil => rfl
  | cons piece parts ih =>
    simp only [located, List.filterMap_cons, Place.moved_after, ih, covering_moved]
    cases Directive.ofPiece? piece <;> rfl

/-- The pieces of a moved system describe the system that was moved. -/
theorem ofParts_moved (start : Place) (parts : List (Piece Part)) :
    SystemText.ofParts (start.moved bytes lines) parts =
      (SystemText.ofParts start parts).moved bytes lines := by
  simp only [SystemText.ofParts, directivesOf_moved, covering_moved, SystemText.moved]

/-- What a text holds moves with it. -/
theorem HoldsSystems.moved {place : Place} {text : List Char} {found : List SystemText}
    (h : HoldsSystems place text found) :
    HoldsSystems (place.moved bytes lines) text (found.map (SystemText.moved bytes lines)) := by
  induction h with
  | done hend => exact .done hend
  | more hpadding hread hrest ih =>
    rw [List.map_cons, ← ofParts_moved, ← Place.moved_after]
    rw [← Place.moved_after, ← Place.moved_after] at ih
    exact .more hpadding hread ih

/-- A moved system describes a moved definition. -/
theorem ofText_moved (source : String) (system : SystemText) (d : Definition)
    (h : Definition.ofText source system = .ok d) :
    Definition.ofText source (system.moved bytes lines) = .ok (d.moved bytes lines) := by
  have hdirectives : (system.moved bytes lines).directives.map (·.2) =
      system.directives.map (·.2) := by
    rw [SystemText.moved, List.map_map]
    rfl
  obtain ⟨happlicable, hnodup, rfl⟩ := (ofText_eq_ok_iff _ _ _).mp h
  rw [ofText_eq_ok_iff, hdirectives]
  exact ⟨happlicable, hnodup, rfl⟩

/-- Moved systems describe moved definitions. -/
theorem ofTexts_moved (source : String) (systems : List SystemText) (ds : List Definition)
    (h : Definition.ofTexts source systems = .ok ds) :
    Definition.ofTexts source (systems.map (SystemText.moved bytes lines)) =
      .ok (ds.map (Definition.moved bytes lines)) := by
  induction systems generalizing ds with
  | nil =>
    obtain rfl : ds = [] := (Except.ok.inj h).symm
    rfl
  | cons system systems ih =>
    obtain ⟨d, others, hd, hothers, rfl⟩ := (ofTexts_cons_eq_ok_iff _ _ _ _).mp h
    exact (ofTexts_cons_eq_ok_iff _ _ _ _).mpr
      ⟨_, _, ofText_moved bytes lines source system d hd, ih others hothers, rfl⟩

end

/-- The systems of two runs describe the definitions of both. -/
theorem ofTexts_append (source : String) (first second : List SystemText)
    (ds es : List Definition) (hfirst : Definition.ofTexts source first = .ok ds)
    (hsecond : Definition.ofTexts source second = .ok es) :
    Definition.ofTexts source (first ++ second) = .ok (ds ++ es) := by
  induction first generalizing ds with
  | nil =>
    obtain rfl : ds = [] := (Except.ok.inj hfirst).symm
    exact hsecond
  | cons system first ih =>
    obtain ⟨d, others, hd, hothers, rfl⟩ := (ofTexts_cons_eq_ok_iff _ _ _ _).mp hfirst
    exact (ofTexts_cons_eq_ok_iff _ _ _ _).mpr ⟨d, _, hd, ih others hothers, rfl⟩

/-- Two texts with a line break between them hold the systems of the first and then those of the
second. -/
theorem HoldsSystems.append {c : Char} (hc : isLineBreak c = true) {place : Place}
    {first second : List Char} {found others : List SystemText}
    (hfirst : HoldsSystems place first found)
    (hsecond : HoldsSystems (place.after (first ++ [c])) second others) :
    HoldsSystems place (first ++ c :: second) (found ++ others) := by
  induction hfirst with
  | @done place first hend =>
    -- the whole first text is padding before the second
    have hpadding : afterPadding ((first ++ [c]) ++ second) = afterPadding second := by
      rw [List.append_assoc, List.singleton_append, afterPadding, pastPadding_append _ _ _ c hc,
        if_pos hend]
    simpa using hsecond.padded hpadding
  | @more place padding start rest inside found hpadding hread hrest ih =>
    have hsolid : IsSolid start := hpadding ▸ isSolid_afterPadding (padding ++ start)
    have hkept := keeps_system hc hsecond.endsOr start _ rest hsolid hread hrest.endsOr
    have hstart : start ≠ [] := by
      rintro rfl
      contradiction
    have hpast : pastPadding false (padding ++ start) = start := hpadding
    have hbefore : afterPadding (padding ++ (start ++ c :: second)) = start ++ c :: second := by
      rw [← List.append_assoc, afterPadding, pastPadding_append _ _ _ c hc, hpast, if_neg hstart]
    have htext : Piece.textOf inside ++ rest = start := by
      obtain ⟨_, hinside, htext⟩ := of_read_system hread
      cases hinside
      exact htext
    rw [← Place.after_append, ← Place.after_append] at ih
    rw [List.append_assoc, List.cons_append]
    exact .more hbefore hkept (ih (by simpa [← htext] using hsecond))

/-- The text of two files with a line feed between them, within the limit on its bytes, gives the
definitions of the first as they are and then those of the second, of which only the spans move: by
the bytes and the line feeds of the first file and of the line feed. -/
theorem parse_append (first second : String) (source : Option String) (limits : Limits)
    (ds es : List Definition) (hfirst : DefinitionFile.parse first source limits = .ok ds)
    (hsecond : DefinitionFile.parse second source limits = .ok es)
    (hbound : (first ++ "\n" ++ second).utf8ByteSize ≤ limits.maxDefinitionBytes) :
    DefinitionFile.parse (first ++ "\n" ++ second) source limits = .ok (ds ++ es.map
      (Definition.moved (first.utf8ByteSize + 1) (first.toList.count '\n' + 1))) := by
  obtain ⟨-, found, hfound, hds⟩ := (parse_eq_ok_iff _ _ _ _).mp hfirst
  obtain ⟨-, others, hothers, hes⟩ := (parse_eq_ok_iff _ _ _ _).mp hsecond
  have hbytes : String.utf8Len first.toList = first.utf8ByteSize := by
    rw [← String.utf8ByteSize_ofList, String.ofList_toList]
  have hmoved := hothers.moved (first.utf8ByteSize + 1) (first.toList.count '\n' + 1)
  rw [← hbytes, ← Place.after_lineFeed, hbytes] at hmoved
  have htext : (first ++ "\n" ++ second).toList = first.toList ++ '\n' :: second.toList := by
    simp
  rw [parse_eq_ok_iff, htext]
  exact ⟨hbound, _, hfound.append (by decide) hmoved,
    ofTexts_append _ _ _ _ _ hds (ofTexts_moved _ _ _ _ _ hes)⟩

/-- A text that ends in a comma and a comment keeps its system before a text that begins with a
carriage return. -/
theorem parse_append_openList :
    let first : Definition :=
      { name := "Motion", scalarType := "f32", units := ["Metre"], source := some "<input>",
        span := some ⟨0, 37, 1, 1⟩ }
    let second : Definition :=
      { name := "Time", units := ["Second"], source := some "<input>", span := some ⟨1, 26, 1, 2⟩ }
    DefinitionFile.parse "system Motion\nscalar f32\nunits Metre, # and so on," none {} =
        .ok [first] ∧
      DefinitionFile.parse "\rsystem Time\r\nunits Second" none {} = .ok [second] ∧
      DefinitionFile.parse
          ("system Motion\nscalar f32\nunits Metre, # and so on," ++ "\n" ++
            "\rsystem Time\r\nunits Second") none {} =
        .ok [first, { second with span := some ⟨52, 77, 4, 2⟩ }] := by
  intro first second
  have hfirst :
      DefinitionFile.parse "system Motion\nscalar f32\nunits Metre, # and so on," none {} =
        .ok [first] := eq_ok_of_toOption _ _ (by decide +kernel)
  have hsecond : DefinitionFile.parse "\rsystem Time\r\nunits Second" none {} = .ok [second] :=
    eq_ok_of_toOption _ _ (by decide +kernel)
  exact ⟨hfirst, hsecond, parse_append _ _ none {} _ _ hfirst hsecond (by decide +kernel)⟩

end UnitSystems
