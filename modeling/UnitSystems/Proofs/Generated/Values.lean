import UnitSystems.Proofs.Generated.Declared
import UnitSystems.Proofs.Generated.Display

/-!
# Values that a generated file names

A constant is visible in the whole file. A pattern or a declaration with its name means the
constant, and so the names that the display binds and those in the values of constants should be
none of the declared ones. Validation asks this of no constant: the theorem says which names are to
be avoided.
-/

namespace UnitSystems.Generated

/-- The name that a token binds together with those after it: the one in `let mut name`, or a
pattern `name =>` that is no number. -/
def bound? : Token → List Token → Option String
  | .word first, .word second :: .word name :: _ =>
    if first = "let" ∧ second = "mut" then some name else none
  | .word name, .mark first :: .mark second :: _ =>
    if first = '=' ∧ second = '>' ∧ numeral? name = none then some name else none
  | _, _ => none

/-- The names that are bound, in order. -/
def boundNames : List Token → List String
  | [] => []
  | token :: rest => (bound? token rest).toList ++ boundNames rest

/-- The name that a token is. -/
def Token.word? : Token → Option String
  | word text => some text
  | _ => none

/-- The names in the value of a constant, which stands behind the first equals sign. A literal that
is more than a name is left out. -/
def namesInValue (name type scalar literal : String) : List String :=
  let shown := if Names.isIdentifier literal then literal else ""
  let value := (render [.constant name type scalar shown]).toList.dropWhile (· != '=')
  (tokens value).filterMap Token.word?

/-- The names of values that an item binds or uses: the local ones of the display and those in the
values of constants. -/
def Item.values : Item → List String
  | formatter f => boundNames (tokens (render [.formatter f]).toList)
  | constant name type scalar literal => namesInValue name type scalar literal
  | _ => []

/-- Tokens that a binding needs. -/
def Token.Binds (t : Token) : Prop :=
  t = .word "let" ∨ t = .mark '='

instance (t : Token) : Decidable t.Binds :=
  inferInstanceAs (Decidable (_ ∨ _))

/-- Without such tokens nothing is bound, unless the last name becomes a pattern. -/
theorem boundNames_append (part rest : List Token) (hpart : ∀ t ∈ part, ¬t.Binds)
    (hrest : rest.head? ≠ some (.mark '=')) :
    boundNames (part ++ rest) = boundNames rest := by
  induction part with
  | nil => rfl
  | cons token part ih =>
    rw [List.forall_mem_cons] at hpart
    have hnext : (part ++ rest).head? ≠ some (.mark '=') := by
      cases part with
      | nil => exact hrest
      | cons next part =>
        exact fun heq => hpart.2 next List.mem_cons_self (.inr (Option.some.inj heq))
    have hnone : bound? token (part ++ rest) = none := by
      unfold bound?
      split
      · exact if_neg fun h => hpart.1 (.inl (congrArg _ h.1))
      · next heq =>
        rw [heq] at hnext
        exact if_neg fun h => hnext (congrArg (some ∘ Token.mark) h.1)
      · rfl
    rw [List.cons_append, boundNames, hnone, ih hpart.2]
    rfl

/-- Joined items have no other tokens than theirs and the ones between them. -/
theorem forall_mem_joined (P : Token → Prop) (between : Token) (items : List (List Token))
    (hbetween : P between) (hitems : ∀ item ∈ items, ∀ t ∈ item, P t) :
    ∀ t ∈ joined between items, P t := by
  induction items with
  | nil => nofun
  | cons item items ih =>
    rw [List.forall_mem_cons] at hitems
    cases items with
    | nil => exact hitems.1
    | cons next items =>
      rw [joined, List.forall_mem_append, List.forall_mem_cons]
      exact ⟨hitems.1, hbetween, ih hitems.2⟩

/-- A name of the generated language binds nothing. -/
theorem not_binds_word (name : String) (h : Names.isIdentifier name = true) :
    ¬(Token.word name).Binds := by
  rintro (heq | heq)
  · obtain rfl := Token.word.inj heq
    exact absurd h (by decide)
  · contradiction

/-- The tokens of a display before the body of its function. -/
def Program.heading (p : Program) : List Token :=
  .word "impl" :: .mark '<' :: joined (.mark ',') (p.parameters.map fun name => [.word name]) ++
    .mark '>' :: .word "DimToString" :: .word "for" :: p.target.tokens ++ .word "where" ::
    (p.bounds.flatMap fun b => b.tokens ++ [.mark ',']) ++ .mark '\x7b' :: functionTokens

/-- The body makes the empty text, goes through the choices and returns the text. -/
theorem Program.tokens_eq_heading_append (p : Program) : p.tokens =
    p.heading ++ (emptyTokens ++ (p.choices.flatMap Choice.tokens ++
      [.word "text", .mark '\x7d', .mark '\x7d'])) := by
  simp only [Program.tokens, Program.heading, List.append_assoc, List.cons_append]

/-- Nothing is bound before the body. -/
theorem not_binds_heading (s : Specification) (hs : s.IsValid) :
    ∀ t ∈ (display s).program.heading, ¬t.Binds := by
  have hunits : ∀ unit ∈ s.identifiers, ∀ t ∈ [Token.word unit], ¬t.Binds := fun unit hunit =>
    List.forall_mem_singleton.mpr (not_binds_word unit (hs.identifiers unit hunit))
  have hnames : ∀ t ∈ joined (.mark ',') (s.identifiers.map fun name => [.word name]),
      ¬t.Binds := forall_mem_joined _ _ _ (by decide) (List.forall_mem_map.mpr hunits)
  have htarget : ∀ t ∈ (typeOfParameters s s.identifiers).tokens, ¬t.Binds := by
    simp only [typeOfParameters, typeOf, DimensionType.tokens, List.map_map]
    rw [List.forall_mem_append, List.forall_mem_cons, List.forall_mem_cons]
    exact ⟨⟨not_binds_word s.name hs.name, by decide, hnames⟩, by decide⟩
  have hbounds : ∀ t ∈ (display s).bounds.flatMap fun b => b.tokens ++ [.mark ','],
      ¬t.Binds := by
    simp only [display, List.flatMap_map, List.mem_flatMap, forall_exists_index, and_imp]
    intro t unit hunit ht
    have htokens : (⟨.parameter unit, [⟨exponentBound, none⟩, ⟨"ToInt", none⟩]⟩ : Bound).tokens ++
        [.mark ','] = .word unit :: [.mark ':', .word "Peano", .mark '+', .word "ToInt",
          .mark ','] := rfl
    rw [htokens, List.mem_cons] at ht
    rcases ht with rfl | ht
    · exact hunits unit hunit _ List.mem_cons_self
    · exact (by decide : ∀ t ∈ _, ¬t.Binds) t ht
  simp only [Program.heading, List.forall_mem_append, List.forall_mem_cons, List.cons_append]
  exact ⟨by decide, by decide, ⟨⟨hnames, by decide, by decide, by decide, htarget⟩,
    by decide, hbounds⟩, by decide, by decide⟩

/-- The empty text is bound to its name. -/
theorem boundNames_emptyTokens (rest : List Token) :
    boundNames (emptyTokens ++ rest) = "text" :: boundNames rest := by
  simp [emptyTokens, boundNames, bound?]

/-- The choice for a base unit binds the integer. -/
theorem boundNames_choice (a : Arm) (h : Names.isIdentifier a.parameter = true)
    (rest : List Token) :
    boundNames (a.choice.tokens ++ rest) = "n" :: boundNames rest := by
  have hparameter : a.parameter ≠ "let" := fun heq => by
    rw [heq] at h
    exact absurd h (by decide)
  have hn : numeral? "n" = none := by decide
  simp [Arm.choice, Choice.tokens, Branch.tokens, Pattern.tokens, Action.tokens, integerTokens,
    pushTokens, formatTokens, boundNames, bound?, numeral?_repr, literalToken, hparameter, hn]

/-- The choices for base units bind an integer each. -/
theorem boundNames_choices (arms : List Arm)
    (h : ∀ a ∈ arms, Names.isIdentifier a.parameter = true) (rest : List Token) :
    boundNames ((arms.map Arm.choice).flatMap Choice.tokens ++ rest) =
      (arms.map fun _ => "n") ++ boundNames rest := by
  induction arms with
  | nil => rfl
  | cons a arms ih =>
    rw [List.forall_mem_cons] at h
    simp only [List.map_cons, List.flatMap_cons, List.append_assoc, List.cons_append]
    rw [boundNames_choice a h.1, ih h.2]

/-- A display binds the text, and the integer once for each base unit. -/
theorem boundNames_display (s : Specification) (hs : s.IsValid) :
    boundNames (display s).program.tokens = "text" :: s.baseUnits.map fun _ => "n" := by
  have harms : ∀ a ∈ (display s).arms, Names.isIdentifier a.parameter = true := by
    rw [display, List.forall_mem_map]
    exact fun unit hunit => hs.identifiers unit.identifier (List.mem_map_of_mem hunit)
  have hend : boundNames [.word "text", .mark '\x7d', .mark '\x7d'] = [] := by decide
  have hbody (rest : List Token) : (emptyTokens ++ rest).head? ≠ some (.mark '=') := by
    simp [emptyTokens]
  rw [Program.tokens_eq_heading_append, boundNames_append _ _ (not_binds_heading s hs) (hbody _),
    boundNames_emptyTokens, Formatter.program, boundNames_choices _ harms, hend, List.append_nil,
    display, List.map_map]
  rfl

/-- The value of a constant names the constructor, the literal if it is a name, and the marker. -/
theorem namesInValue_eq (name type scalar literal : String)
    (hname : Names.isIdentifier name = true) (htype : Names.isIdentifier type = true)
    (hscalar : Names.isTypePath scalar = true) :
    namesInValue name type scalar literal =
      "Dim" :: (if Names.isIdentifier literal then [literal] else []) ++ ["PhantomData"] := by
  have hdrop (part rest : List Char) (h : '=' ∉ part) :
      (part ++ rest).dropWhile (· != '=') = rest.dropWhile (· != '=') :=
    List.dropWhile_append_of_pos fun _ hc => bne_iff_ne.mpr (ne_of_mem_of_not_mem hc h)
  have hword (name : String) (h : Names.isIdentifier name = true) : '=' ∉ name.toList :=
    (isWordText_of_isIdentifier name h).notMem '=' (by decide)
  have hvalue (rest : List Char) : ("> = Dim(".toList ++ rest).dropWhile (· != '=') =
      "= Dim(".toList ++ rest := rfl
  simp only [namesInValue, render, toList_unlines, List.flatMap_cons, List.flatMap_nil,
    Item.lines, String.toList_append, List.append_assoc, List.append_nil]
  rw [hdrop "pub const ".toList _ (by decide), hdrop _ _ (hword name hname),
    hdrop ": Dim<".toList _ (by decide), hdrop _ _ (hword type htype),
    hdrop ", ".toList _ (by decide),
    hdrop _ _ (Names.notMem_of_isTypePath scalar hscalar '=' (by decide) (by decide)), hvalue,
    tokens_append "= Dim(".toList _ [.mark '=', .word "Dim", .mark '(']]
  split
  · next hliteral =>
    rw [tokens_word_append literal (isWordText_of_isIdentifier literal hliteral)
      ", PhantomData);".toList _ [.mark ',', .word "PhantomData", .mark ')', .mark ';']]
    rfl
  · rfl

/-- The display of a file binds the text, and the integer once for each base unit. -/
theorem values_display (s : Specification) (hs : s.IsValid) :
    Item.values (.formatter (display s)) = "text" :: s.baseUnits.map fun _ => "n" := by
  have htokens := tokens_formatter (display s) (isOpen_display s hs) []
  rw [List.append_nil] at htokens
  simp only [Item.values, render, toList_unlines, List.flatMap_cons, List.flatMap_nil,
    List.append_nil, Item.lines]
  rw [htokens]
  exact (congrArg boundNames (List.append_nil _)).trans (boundNames_display s hs)

/-- The names of values in a file: those that the display binds, and for every constant those in
its value. -/
theorem values_items (d : Definition) (limits : Limits) (s : Specification)
    (hs : d.validate limits = .ok s) (options : Options) :
    (items s options).flatMap Item.values =
      "text" :: (s.baseUnits.map fun _ => "n") ++
        (s.unitlessConstant :: s.baseUnits.map (·.constant)).flatMap fun _ =>
          "Dim" :: (if Names.isIdentifier s.identityLiteral then [s.identityLiteral] else []) ++
            ["PhantomData"] := by
  have hvalid := d.isValid_of_validate limits s hs
  obtain ⟨heq, -, -, hconstants⟩ := d.constants_of_validate limits s hs
  rw [← heq, List.forall_mem_cons, List.forall_mem_map] at hconstants
  obtain ⟨-, hscalar, hpath, -⟩ := d.types_of_validate limits s hs
  rw [← hscalar] at hpath
  have hunitless := namesInValue_eq s.unitlessConstant unitlessName s.scalarType
    s.identityLiteral hconstants.1 (by decide) hpath
  have hunit (unit : BaseUnit) (hunit : unit ∈ s.baseUnits) :=
    namesInValue_eq unit.constant unit.identifier s.scalarType s.identityLiteral
      (hconstants.2 unit hunit) (hvalid.identifiers _ (List.mem_map_of_mem hunit)) hpath
  have hvalues : (constants s).flatMap Item.values =
      (s.unitlessConstant :: s.baseUnits.map (·.constant)).flatMap fun _ =>
        "Dim" :: (if Names.isIdentifier s.identityLiteral then [s.identityLiteral] else []) ++
          ["PhantomData"] := by
    simp only [constants, constant, List.flatMap_cons, List.flatMap_map, Item.values, hunitless]
    rw [List.flatMap_congr hunit]
  rw [flatMap_items Item.values (fun _ => []) (by constructor <;> intros <;> rfl), hvalues,
    values_display s hvalid]
  simp [Item.values]

end UnitSystems.Generated

namespace UnitSystems

open Generated

/-- When no constant of a file is among the names of values that the file binds or uses. Validation
sees to none of these names: they are the text and the integer of the display, the two constructors
and the literal. -/
theorem constants_not_values_iff (d : Definition) (limits : Limits) (s : Specification)
    (hs : d.validate limits = .ok s) (options : Options) :
    (∀ name ∈ (items s options).flatMap Item.constants,
        name ∉ (items s options).flatMap Item.values) ↔
      ∀ name ∈ d.unitlessConstant :: d.constants,
        name ∉ ["text", "n", "Dim", "PhantomData", Text.trimmed d.identityLiteral] := by
  obtain ⟨heq, hliteral, -, hidentifiers⟩ := d.constants_of_validate limits s hs
  have hunits : s.baseUnits ≠ [] := fun hempty =>
    (d.isValid_of_validate limits s hs).nonempty (by rw [Specification.identifiers, hempty]; rfl)
  rw [constants_items, values_items d limits s hs, heq, hliteral]
  refine forall₂_congr fun name hname => not_congr ?_
  have hinteger : name ∈ (s.baseUnits.map fun _ => "n") ↔ name = "n" := by
    rw [List.map_const', List.mem_replicate, and_iff_right (mt List.length_eq_zero_iff.mp hunits)]
  -- A literal that is no identifier is no constant either.
  have hshown : name ∈ (if Names.isIdentifier (Text.trimmed d.identityLiteral) then
      [Text.trimmed d.identityLiteral] else []) ↔ name = Text.trimmed d.identityLiteral := by
    split
    · exact List.mem_singleton
    · next hfalse =>
      exact iff_of_false List.not_mem_nil fun heq => hfalse (heq ▸ hidentifiers name hname)
  simp only [List.mem_append, List.mem_cons, List.mem_flatMap, List.not_mem_nil, hinteger, hshown,
    or_false]
  constructor
  · rintro ((h | h) | ⟨_, -, (h | h) | h⟩) <;> simp [h]
  · rintro (h | h | h | h | h)
    · exact .inl (.inl h)
    · exact .inl (.inr h)
    · exact .inr ⟨d.unitlessConstant, .inl rfl, .inl (.inl h)⟩
    · exact .inr ⟨d.unitlessConstant, .inl rfl, .inr h⟩
    · exact .inr ⟨d.unitlessConstant, .inl rfl, .inl (.inr h)⟩

/-- The constants of a moving body name nothing else. -/
theorem constants_not_values_motion :
    motionDefinition.validate {} = .ok (motionDefinition.toSpecification 6) ∧
      ∀ name ∈ (items (motionDefinition.toSpecification 6) {}).flatMap Item.constants,
        name ∉ (items (motionDefinition.toSpecification 6) {}).flatMap Item.values :=
  ⟨validate_motionDefinition,
    (constants_not_values_iff motionDefinition {} _ validate_motionDefinition {}).mpr
      (by decide +kernel)⟩

/-- A system whose constant is named like the text that the display builds. -/
def textDefinition : Definition where
  name := "Test"
  units := ["Meter"]
  symbols := ["m"]
  constants := ["text"]

/-- Nothing is wrong with this system, and its file both declares the constant and binds its
name. -/
theorem constant_text_bound :
    ∃ s, textDefinition.validate {} = .ok s ∧
      "text" ∈ (items s {}).flatMap Item.constants ∧
      "text" ∈ (items s {}).flatMap Item.values := by
  have hs : textDefinition.validate {} = .ok (textDefinition.toSpecification 1) :=
    eq_ok_of_toOption _ _ (by decide +kernel)
  refine ⟨_, hs, by decide +kernel, ?_⟩
  rw [values_items textDefinition {} _ hs]
  exact List.mem_cons_self

end UnitSystems
