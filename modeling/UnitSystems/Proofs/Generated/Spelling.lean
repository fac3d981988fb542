import UnitSystems.Proofs.Generated.Token

/-!
# Tokens of spelled types

The spelling of a type, a trait or a condition consists of known tokens. Its names must be words,
and what follows must not go on with a word.
-/

namespace UnitSystems.Generated

/-- Tokens of several items with one token between them. -/
def joined (between : Token) : List (List Token) → List Token
  | [] => []
  | [item] => item
  | item :: next :: rest => item ++ between :: joined between (next :: rest)

/-- Spellings with a separator between them are scanned one after the other. -/
theorem tokens_intercalate {α : Type} (separator : String) (between : Token)
    (hseparator : Scan.between.run separator.toList = ([between], .between))
    (hseparated : ∀ rest, Separated (separator.toList ++ rest)) (text : α → String)
    (found : α → List Token) (items : List α)
    (hitems : ∀ item ∈ items, ∀ rest, Separated rest →
      tokens ((text item).toList ++ rest) = found item ++ tokens rest)
    (rest : List Char) (hrest : Separated rest) :
    tokens ((separator.intercalate (items.map text)).toList ++ rest) =
      joined between (items.map found) ++ tokens rest := by
  induction items with
  | nil => simp [joined]
  | cons item items ih =>
    have hitem := hitems item List.mem_cons_self
    cases items with
    | nil =>
      simp only [List.map_cons, List.map_nil, String.intercalate_singleton, joined]
      exact hitem rest hrest
    | cons next items =>
      have hnext := ih fun i hi => hitems i (List.mem_cons_of_mem item hi)
      simp only [List.map_cons] at hnext ⊢
      simp only [String.intercalate_cons_cons, String.toList_append, List.append_assoc, joined]
      rw [hitem _ (hseparated _), tokens_append _ _ _ hseparator, hnext]
      rfl

/-- Items of a list stand between commas. -/
theorem tokens_listed {α : Type} (text : α → String) (found : α → List Token) (items : List α)
    (hitems : ∀ item ∈ items, ∀ rest, Separated rest →
      tokens ((text item).toList ++ rest) = found item ++ tokens rest)
    (rest : List Char) (hrest : Separated rest) :
    tokens ((Text.listed (items.map text)).toList ++ rest) =
      joined (.mark ',') (items.map found) ++ tokens rest :=
  tokens_intercalate ", " (.mark ',') (by decide) (fun rest => separated_append _ rest) text
    found items hitems rest hrest

/-- Names of a list stand between commas. -/
theorem tokens_names (names : List String) (hnames : ∀ name ∈ names, IsWordText name)
    (rest : List Char) (hrest : Separated rest) :
    tokens ((Text.listed names).toList ++ rest) =
      joined (.mark ',') (names.map fun name => [.word name]) ++ tokens rest := by
  have hlisted := tokens_listed id (fun name => [.word name]) names
    (fun name hname => tokens_word name (hnames name hname)) rest hrest
  rwa [List.map_id] at hlisted

/-- The tokens of an argument over type parameters. -/
def Argument.tokens : Argument → List Token
  | parameter name => [.word name]
  | projection left exponentTrait right =>
    [.mark '<', .word left, .word "as", .word exponentTrait, .mark '<', .word right, .mark '>',
      .mark '>', .mark ':', .mark ':', .word "Output"]
  | exponent _ => []

/-- Arguments over type parameters whose names are words. -/
def Argument.IsOpen : Argument → Prop
  | parameter name => IsWordText name
  | projection left exponentTrait right =>
    IsWordText left ∧ IsWordText exponentTrait ∧ IsWordText right
  | exponent _ => False

/-- An argument is spelled with its tokens. -/
theorem tokens_argument (argument : Argument) (h : argument.IsOpen) (rest : List Char)
    (hrest : Separated rest) :
    tokens (argument.text.toList ++ rest) = argument.tokens ++ tokens rest := by
  cases argument with
  | parameter name => exact tokens_word name h rest hrest
  | projection left exponentTrait right =>
    obtain ⟨hleft, htrait, hright⟩ := h
    simp only [Argument.text, String.toList_append, List.append_assoc]
    rw [tokens_append "<".toList _ [.mark '<'],
      tokens_word_append left hleft " as ".toList _ [.word "as"],
      tokens_word_append exponentTrait htrait "<".toList _ [.mark '<'],
      tokens_word right hright _ (separated_append _ _),
      tokens_append_of_word ">>::Output".toList _ [.mark '>', .mark '>', .mark ':', .mark ':']
        "Output" hrest]
    rfl
  | exponent value => exact h.elim

/-- The tokens of a dimension type. -/
def DimensionType.tokens (t : DimensionType) : List Token :=
  .word t.system :: .mark '<' :: joined (.mark ',') (t.arguments.map Argument.tokens) ++ [.mark '>']

/-- Dimension types over type parameters whose names are words. -/
def DimensionType.IsOpen (t : DimensionType) : Prop :=
  IsWordText t.system ∧ ∀ argument ∈ t.arguments, argument.IsOpen

/-- A dimension type is spelled with its tokens. -/
theorem tokens_type (t : DimensionType) (h : t.IsOpen) (rest : List Char) :
    tokens (t.text.toList ++ rest) = t.tokens ++ tokens rest := by
  simp only [DimensionType.text, String.toList_append, List.append_assoc]
  rw [tokens_word_append t.system h.1 "<".toList _ [.mark '<'],
    tokens_listed Argument.text Argument.tokens t.arguments
      (fun argument hmem => tokens_argument argument (h.2 argument hmem)) _
      (separated_append _ _),
    tokens_append ">".toList rest [.mark '>']]
  simp only [DimensionType.tokens, List.append_assoc, List.cons_append, List.nil_append]

/-- The tokens of an operand. -/
def Operand.tokens : Operand → List Token
  | dimension type => type.tokens
  | parameter name => [.word name]

/-- Operands over type parameters whose names are words. -/
def Operand.IsOpen : Operand → Prop
  | dimension type => type.IsOpen
  | parameter name => IsWordText name

/-- An operand is spelled with its tokens. -/
theorem tokens_operand (operand : Operand) (h : operand.IsOpen) (rest : List Char)
    (hrest : Separated rest) :
    tokens (operand.text.toList ++ rest) = operand.tokens ++ tokens rest := by
  cases operand with
  | dimension type => exact tokens_type type h rest
  | parameter name => exact tokens_word name h rest hrest

/-- The tokens of a trait. -/
def Trait.tokens (t : Trait) : List Token :=
  match t.argument with
  | some argument => [.word t.name, .mark '<', .word argument, .mark '>']
  | none => [.word t.name]

/-- Traits whose names are words. -/
def Trait.IsOpen (t : Trait) : Prop :=
  IsWordText t.name ∧ ∀ argument ∈ t.argument, IsWordText argument

/-- A trait is spelled with its tokens. -/
theorem tokens_trait (t : Trait) (h : t.IsOpen) (rest : List Char) (hrest : Separated rest) :
    tokens (t.text.toList ++ rest) = t.tokens ++ tokens rest := by
  obtain ⟨name, argument⟩ := t
  cases argument with
  | none => exact tokens_word name h.1 rest hrest
  | some argument =>
    simp only [Trait.text, String.toList_append, List.append_assoc]
    rw [tokens_word_append name h.1 "<".toList _ [.mark '<'],
      tokens_word_append argument (h.2 argument rfl) ">".toList _ [.mark '>']]
    rfl

/-- The tokens of a condition. -/
def Bound.tokens (b : Bound) : List Token :=
  b.subject.tokens ++ .mark ':' :: joined (.mark '+') (b.traits.map Trait.tokens)

/-- Conditions over type parameters whose names are words. -/
def Bound.IsOpen (b : Bound) : Prop :=
  b.subject.IsOpen ∧ ∀ t ∈ b.traits, t.IsOpen

/-- A condition is spelled with its tokens. -/
theorem tokens_bound (b : Bound) (h : b.IsOpen) (rest : List Char) (hrest : Separated rest) :
    tokens (b.text.toList ++ rest) = b.tokens ++ tokens rest := by
  simp only [Bound.text, String.toList_append, List.append_assoc]
  rw [tokens_argument b.subject h.1 _ (separated_append _ _),
    tokens_append ": ".toList _ [.mark ':'],
    tokens_intercalate " + " (.mark '+') (by decide)
      (fun rest => separated_append _ rest) Trait.text Trait.tokens b.traits
      (fun t ht => tokens_trait t (h.2 t ht)) rest hrest]
  simp only [Bound.tokens, List.append_assoc, List.cons_append, List.nil_append]

/-- Lines stand one after the other, each ended by a line feed. -/
theorem toList_unlines (lines : List String) :
    (unlines lines).toList = lines.flatMap fun line => line.toList ++ ['\n'] := by
  rw [unlines, String.toList_join, List.flatMap_map]
  simp

/-- A line feed is no token. -/
theorem tokens_lineFeed (rest : List Char) : tokens (['\n'] ++ rest) = tokens rest :=
  tokens_append ['\n'] rest []

/-- Lines are scanned one after the other. -/
theorem tokens_lines {α : Type} (line : α → String) (found : α → List Token) (items : List α)
    (hitems : ∀ item ∈ items, ∀ rest, Separated rest →
      tokens ((line item).toList ++ rest) = found item ++ tokens rest) (rest : List Char) :
    tokens (((items.map line).flatMap fun line => line.toList ++ ['\n']) ++ rest) =
      items.flatMap found ++ tokens rest := by
  induction items with
  | nil => rfl
  | cons item items ih =>
    simp only [List.map_cons, List.flatMap_cons, List.append_assoc]
    rw [hitems item List.mem_cons_self _ (separated_append _ _),
      tokens_lineFeed, ih fun i hi => hitems i (List.mem_cons_of_mem item hi)]

/-- The line of a condition ends in a comma. -/
theorem tokens_bound_line (b : Bound) (h : b.IsOpen) (rest : List Char) :
    tokens (b.line.toList ++ rest) = (b.tokens ++ [.mark ',']) ++ tokens rest := by
  simp only [Bound.line, String.toList_append, List.append_assoc]
  rw [tokens_append "    ".toList _ [], List.nil_append,
    tokens_bound b h _ (separated_append _ _),
    tokens_append ",".toList rest [.mark ',']]

/-- The tokens of an operator. -/
def Operation.tokens (o : Operation) : List Token :=
  let heading := joined (.mark ',') (o.parameters.map fun name => [.word name])
  let bounds := o.bounds.flatMap fun b => b.tokens ++ [.mark ',']
  .word "impl" :: .mark '<' :: heading ++ .mark '>' :: .word o.dimensionTrait :: .mark '<' ::
    o.operand.tokens ++ .mark '>' :: .word "for" :: o.target.tokens ++ .word "where" :: bounds ++
    .mark '\x7b' :: .word "type" :: .word "Output" :: .mark '=' :: o.output.tokens ++
    [.mark ';', .mark '\x7d']

/-- Operators over type parameters whose names are words. -/
structure Operation.IsOpen (o : Operation) : Prop where
  parameters : ∀ name ∈ o.parameters, IsWordText name
  dimensionTrait : IsWordText o.dimensionTrait
  operand : o.operand.IsOpen
  target : o.target.IsOpen
  bounds : ∀ b ∈ o.bounds, b.IsOpen
  output : o.output.IsOpen

/-- An operator is spelled with its tokens. -/
theorem tokens_operation (o : Operation) (h : o.IsOpen) (rest : List Char) :
    tokens ((o.lines.flatMap fun line => line.toList ++ ['\n']) ++ rest) =
      o.tokens ++ tokens rest := by
  simp only [Operation.lines, List.flatMap_append, List.flatMap_cons, List.flatMap_nil,
    String.toList_append, List.append_assoc, List.nil_append]
  rw [tokens_append "impl<".toList _ [.word "impl", .mark '<'],
    tokens_names o.parameters h.parameters _ (separated_append _ _),
    tokens_append "> ".toList _ [.mark '>'],
    tokens_word_append o.dimensionTrait h.dimensionTrait "<".toList _ [.mark '<'],
    tokens_operand o.operand h.operand _ (separated_append _ _),
    tokens_append "> for ".toList _ [.mark '>', .word "for"],
    tokens_type o.target h.target, tokens_lineFeed,
    tokens_append_of_word "where".toList _ [] "where" (separated_append _ _),
    tokens_lineFeed,
    tokens_lines Bound.line (fun b => b.tokens ++ [.mark ',']) o.bounds
      (fun b hb rest _ => tokens_bound_line b (h.bounds b hb) rest),
    tokens_append "\x7b".toList _ [.mark '\x7b'], tokens_lineFeed,
    tokens_append "    type Output = ".toList _ [.word "type", .word "Output", .mark '='],
    tokens_type o.output h.output, tokens_append ";".toList _ [.mark ';'],
    tokens_lineFeed, tokens_append "\x7d".toList _ [.mark '\x7d'],
    tokens_lineFeed]
  simp only [Operation.tokens, List.append_assoc, List.cons_append, List.nil_append]

end UnitSystems.Generated
