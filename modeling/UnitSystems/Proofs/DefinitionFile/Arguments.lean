import UnitSystems.Proofs.DefinitionFile.Lines

/-!
# Reading what stands after a directive word

Each argument in its written form is read to the end of its line, and the pieces that it is read
as give back the names, the quoted texts, the path, the digits or the value. So every directive
with a written form is the meaning of the piece that its line is read as.
-/

namespace UnitSystems

open Grammar

/-- The line of a directive is read as soon as its argument is. -/
theorem read_line (part wordPart : Part) (word : String) (p : Pattern Part)
    (hform : (Pattern.branch part (.spaced (Form.declarationWord wordPart word) p), word) ∈
      directiveForms)
    (argument more : List Char) (parts : List (Piece Part))
    (hsolid : IsSolid (argument ++ '\n' :: more))
    (hp : p.read (argument ++ '\n' :: more) = some (parts, '\n' :: more)) :
    Form.directive.read (word.toList ++ ' ' :: argument ++ '\n' :: more) =
      some ([.branch part (.leaf wordPart word.toList :: .plain [' '] :: parts)],
        '\n' :: more) := by
  rw [List.append_assoc, List.cons_append]
  exact (read_directive_iff _ _).mpr ⟨_, hform,
    read_declaration part wordPart word (mem_keywords_of_form _ hform) p _ _ _ hsolid hp⟩

/-- A character that ends an item ends a name. -/
theorem read_name_endsItem (name : String) (hname : IsName name) (text : List Char)
    (htext : EndsItem text) :
    Form.identifier.read (name.toList ++ text) = some ([.leaf .identifier name.toList], text) := by
  obtain ⟨more, rfl | rfl⟩ := htext
  · exact read_name name hname ',' (by decide) more
  · exact read_name name hname '\n' (by decide) more

/-- A list of names is read to the end of its line. -/
theorem read_identifierList (names : List String) (hne : names ≠ [])
    (hnames : ∀ name ∈ names, IsName name) :
    ∃ parts, leafTexts .identifier parts = names.map String.toList ∧ ∀ more,
      Form.identifierList.read (writtenList (names.map String.toList) ++ '\n' :: more) =
        some ([.branch .identifierList parts], '\n' :: more) := by
  obtain ⟨first, others, rfl⟩ := List.exists_cons_of_ne_nil hne
  refine ⟨listPieces (fun name => .leaf .identifier name.toList) first others, ?_, fun more => ?_⟩
  · rw [find_listPieces (leafTexts .identifier) rfl (fun _ _ => rfl) (leafTexts_append _)]
    exact List.map_eq_flatMap.symm
  · exact Pattern.read_branch _ _ _ _ _ (read_commaList _ _ _ first others more
      (fun name hmem => IsName.isSolid name (hnames name hmem))
      (fun name hmem => IsName.read_lineBreak name (hnames name hmem))
      (fun name hmem => read_name_endsItem name (hnames name hmem)))

/-- No gap stands before a list of names. -/
theorem isSolid_names (names : List String) (hne : names ≠ []) (hnames : ∀ name ∈ names, IsName name)
    (text : List Char) : IsSolid (writtenList (names.map String.toList) ++ text) := by
  obtain ⟨first, others, rfl⟩ := List.exists_cons_of_ne_nil hne
  rw [List.map_cons, writtenList, List.append_assoc]
  exact IsName.isSolid first (hnames first List.mem_cons_self) _

/-- A list of symbols is read to the end of its line. -/
theorem read_symbolList (texts : List String) (hne : texts ≠ []) :
    ∃ parts, branches .symbol parts = texts.map (fun text => [stringPiece text]) ∧ ∀ more,
      Form.symbolList.read (writtenList (texts.map writtenQuoted) ++ '\n' :: more) =
        some ([.branch .symbolList parts], '\n' :: more) := by
  obtain ⟨first, others, rfl⟩ := List.exists_cons_of_ne_nil hne
  refine ⟨listPieces (fun text => .branch .symbol [stringPiece text]) first others, ?_,
    fun more => ?_⟩
  · rw [find_listPieces (branches .symbol) rfl (fun _ _ => rfl) (branches_append _)]
    exact List.map_eq_flatMap.symm
  · exact Pattern.read_branch _ _ _ _ _ (read_commaList _ _ _ first others more
      (fun _ _ _ => isSolid_cons _ _ rfl (by decide))
      (fun _ _ _ => read_lineBreak_eq_none _ _ rfl)
      (fun text _ rest _ => Pattern.read_branch _ _ _ _ _
        (Pattern.read_either_left _ _ _ _ (read_string text rest))))

/-- A path of a type is read up to a character that no path takes. -/
theorem read_scalarType (path : String) (hpath : IsTypePath path) (c : Char)
    (hc : Form.scalarType.refuses c = true) (more : List Char) :
    Form.scalarType.read (path.toList ++ c :: more) =
      some ([.leaf .scalarType path.toList], c :: more) := by
  obtain ⟨pieces, hpieces⟩ := hpath
  obtain ⟨inner, hinner, -⟩ := Pattern.exists_of_read_leaf hpieces
  have hleaf := Pattern.read_leaf .scalarType _ _ path.toList [] _ (List.append_nil _) hinner
  rw [Pattern.read_append_refused _ c hc]
  exact congrArg (Option.map _) hleaf

/-- No gap stands before a path of a type. -/
theorem IsTypePath.isSolid (path : String) (hpath : IsTypePath path) (c : Char)
    (hc : Form.scalarType.refuses c = true) (more : List Char) :
    IsSolid (path.toList ++ c :: more) :=
  Form.scalarType.isSolid_of_read (by decide) (by decide) _ _ (read_scalarType path hpath c hc more)

/-- The written form of an integer is read up to the end of its line. -/
theorem read_integer_line (n : Int) (more : List Char) :
    Form.integer.read (n.repr.toList ++ '\n' :: more) =
      some ([.leaf .integer n.repr.toList], '\n' :: more) := by
  rw [Pattern.read_append_refused _ '\n' (by decide), read_integer]
  rfl

/-- A quoted symbol that was written means the symbol. -/
theorem symbolText_stringPiece (text : String) : Directive.symbolText [stringPiece text] = text :=
  quotedText_stringPiece text

/-- The path and the literal of a scalar type are read to the end of their line. -/
theorem read_scalarArgument (type : String) (literal : Option String) (htype : IsTypePath type)
    (hliteral : ∀ value ∈ literal, IsLineValue value) :
    ∃ parts, Directive.ofPiece? (.branch .scalar
        (.leaf .scalarWord "scalar".toList :: .plain [' '] :: parts)) =
          some (.scalar type literal) ∧
      ∀ more, IsSolid (Directive.argument (.scalar type literal) ++ '\n' :: more) ∧
        (Pattern.spaced Form.scalarType (.optional (.spaced (Form.text "=") Form.restOfLine))).read
            (Directive.argument (.scalar type literal) ++ '\n' :: more) =
          some (parts, '\n' :: more) := by
  cases literal with
  | none =>
    refine ⟨[.leaf .scalarType type.toList] ++ .plain [] :: [], ?_, fun more => ⟨?_, ?_⟩⟩
    · simp [Directive.ofPiece?, Directive.leafString, Directive.lineValue?, leafText?]
    · exact IsTypePath.isSolid type htype '\n' (by decide) more
    · exact Pattern.read_spaced _ _ _ _ _ _ [] _ []
        (read_scalarType type htype '\n' (by decide) more)
        (gap_of_isSolid _ (isSolid_cons _ _ rfl (by decide))) rfl
  | some value =>
    have hvalue := hliteral value rfl
    have htrim : String.ofList (Text.trim value.toList) = value := hvalue.2.1
    have htext (more : List Char) : Directive.argument (.scalar type (some value)) ++ '\n' :: more =
        type.toList ++ ' ' :: '=' :: ' ' :: (value.toList ++ '\n' :: more) := by
      simp [Directive.argument]
    refine ⟨[.leaf .scalarType type.toList] ++ .plain [' '] :: assignedPieces value, ?_,
      fun more => ?_⟩
    · simp [Directive.ofPiece?, Directive.leafString, Directive.lineValue?, leafText?,
        assignedPieces, htrim]
    · rw [htext]
      refine ⟨IsTypePath.isSolid type htype ' ' (by decide) _, ?_⟩
      exact Pattern.read_spaced _ _ _ _ _ _ [' '] _ _
        (read_scalarType type htype ' ' (by decide) _)
        (gap_blank _ (isSolid_cons _ _ rfl (by decide)))
        (by rw [Pattern.read, read_assigned value hvalue more]; rfl)

/-- The name and the value of an extra constant are read to the end of their line. -/
theorem read_extraArgument (constant : ExtraConstant) (hname : IsName constant.name)
    (hvalue : IsLineValue constant.expression) :
    ∃ parts, Directive.ofPiece? (.branch .extra
        (.leaf .extraWord "extra".toList :: .plain [' '] :: parts)) = some (.extra constant) ∧
      ∀ more, IsSolid (Directive.argument (.extra constant) ++ '\n' :: more) ∧
        (Pattern.spaced Form.identifier (.spaced (Form.text "=") Form.restOfLine)).read
            (Directive.argument (.extra constant) ++ '\n' :: more) =
          some (parts, '\n' :: more) := by
  have htrim : String.ofList (Text.trim constant.expression.toList) = constant.expression :=
    hvalue.2.1
  have htext (more : List Char) : Directive.argument (.extra constant) ++ '\n' :: more =
      constant.name.toList ++
        ' ' :: '=' :: ' ' :: (constant.expression.toList ++ '\n' :: more) := by
    simp [Directive.argument]
  refine ⟨[.leaf .identifier constant.name.toList] ++
    .plain [' '] :: assignedPieces constant.expression, ?_, fun more => ?_⟩
  · simp [Directive.ofPiece?, Directive.leafString, Directive.lineValue?, leafText?,
      assignedPieces, htrim]
  · rw [htext]
    refine ⟨IsName.isSolid constant.name hname _, ?_⟩
    exact Pattern.read_spaced _ _ _ _ _ _ [' '] _ _
      (read_name constant.name hname ' ' (by decide) _)
      (gap_blank _ (isSolid_cons _ _ rfl (by decide)))
      (read_assigned constant.expression hvalue more)

/-- The line of every directive with a written form is read as a piece that means it. -/
theorem read_written (directive : Directive) (h : directive.IsWritable) :
    ∃ piece, Directive.ofPiece? piece = some directive ∧ ∀ more,
      Form.directive.read (directive.written ++ '\n' :: more) = some ([piece], '\n' :: more) := by
  cases directive with
  | output target =>
    refine ⟨_, ?_, fun more => read_line .output .outputWord "output" Form.string
      (by simp [directiveForms, Form.output]) _ more [stringPiece target]
      (isSolid_cons _ _ rfl (by decide)) (read_string target _)⟩
    simp [Directive.ofPiece?, branch?, stringPiece, quotedText_stringPiece]
  | scalar type literal =>
    obtain ⟨parts, hmeaning, hread⟩ := read_scalarArgument type literal h.1 h.2
    exact ⟨_, hmeaning, fun more => read_line .scalar .scalarWord "scalar" _
      (by simp [directiveForms, Form.scalar]) _ more parts (hread more).1 (hread more).2⟩
  | unitless name =>
    refine ⟨_, ?_, fun more => read_line .unitless .unitlessWord "unitless" Form.identifier
      (by simp [directiveForms, Form.unitless]) _ more [.leaf .identifier name.toList]
      (IsName.isSolid name h _) (read_name name h '\n' (by decide) more)⟩
    simp [Directive.ofPiece?, Directive.leafString, leafText?]
  | root digits =>
    obtain ⟨value, rfl⟩ := h
    refine ⟨_, ?_, fun more => read_line .root .rootWord "root" Form.integer
      (by simp [directiveForms, Form.root]) _ more [.leaf .integer value.toInt.repr.toList]
      (Form.integer.isSolid_of_read (by decide) (by decide) _ _ (read_integer_line _ more))
      (read_integer_line _ more)⟩
    simp [Directive.ofPiece?, Directive.leafString, leafText?]
  | units names =>
    obtain ⟨parts, hparts, hread⟩ := read_identifierList names h.1 h.2
    refine ⟨_, ?_, fun more => read_line .units .unitsWord "units" Form.identifierList
      (by simp [directiveForms, Form.units]) _ more [.branch .identifierList parts]
      (isSolid_names names h.1 h.2 _) (hread more)⟩
    simp [Directive.ofPiece?, Directive.identifiers, branch?, hparts]
  | symbols texts =>
    obtain ⟨parts, hparts, hread⟩ := read_symbolList texts h
    refine ⟨_, ?_, fun more => read_line .symbols .symbolsWord "symbols" Form.symbolList
      (by simp [directiveForms, Form.symbols]) _ more [.branch .symbolList parts] ?_ (hread more)⟩
    · have hsymbols : Directive.symbolText ∘ (fun text => [stringPiece text]) = id :=
        funext symbolText_stringPiece
      simp [Directive.ofPiece?, branch?, hparts, hsymbols]
    · obtain ⟨first, others, rfl⟩ := List.exists_cons_of_ne_nil h
      exact isSolid_cons _ _ rfl (by decide)
  | constants names =>
    obtain ⟨parts, hparts, hread⟩ := read_identifierList names h.1 h.2
    refine ⟨_, ?_, fun more => read_line .constants .constantsWord "constants" Form.identifierList
      (by simp [directiveForms, Form.constants]) _ more [.branch .identifierList parts]
      (isSolid_names names h.1 h.2 _) (hread more)⟩
    simp [Directive.ofPiece?, Directive.identifiers, branch?, hparts]
  | extra constant =>
    obtain ⟨parts, hmeaning, hread⟩ := read_extraArgument constant h.1 h.2
    exact ⟨_, hmeaning, fun more => read_line .extra .extraWord "extra" _
      (by simp [directiveForms, Form.extra]) _ more parts (hread more).1 (hread more).2⟩

end UnitSystems
