import UnitSystems.Proofs.Generated.Spelling
import UnitSystems.Proofs.Grammar.Reading

/-!
# Reading implementations of operators

A reader takes tokens from the front and leaves the rest. It knows the syntax of the generated
language and nothing about how a specification was spelled. Implementations of operators are
read back as they were written.
-/

namespace UnitSystems.Generated

open Grammar (length_le_flatMap)

/-- A reader of tokens: what was read and the tokens that are left. -/
abbrev Reader (α : Type) := List Token → Option (α × List Token)

variable {α : Type}

/-- The tokens after a fixed beginning. -/
def expect (beginning tokens : List Token) : Option (List Token) :=
  beginning.isPrefixOf? tokens

/-- A fixed beginning is taken off. -/
theorem expect_append (beginning rest : List Token) :
    expect beginning (beginning ++ rest) = some rest :=
  List.isPrefixOf?_eq_some_iff_append_eq.mpr rfl

/-- Nothing is taken off where nothing is expected. -/
theorem expect_nil (rest : List Token) : expect [] rest = some rest :=
  expect_append [] rest

/-- A token that is there is taken off, and the others are expected after it. -/
theorem expect_cons_self (token : Token) (beginning rest : List Token) :
    expect (token :: beginning) (token :: rest) = expect beginning rest := by
  simp [expect, List.isPrefixOf?]

/-- Items with a token between them, at most as many as the bound. -/
def readJoinedWithin (between : Token) (item : Reader α) : Nat → Reader (List α)
  | 0, _ => none
  | bound + 1, tokens => do
    let (first, rest) ← item tokens
    match expect [between] rest with
    | none => some ([first], rest)
    | some rest =>
      let (others, rest) ← readJoinedWithin between item bound rest
      some (first :: others, rest)

/-- One or more items with a token between them. -/
def readJoined (between : Token) (item : Reader α) : Reader (List α) := fun tokens =>
  readJoinedWithin between item tokens.length tokens

/-- Items up to a token, at most as many as the bound. -/
def readUntilWithin (stop : Token) (item : Reader α) : Nat → Reader (List α)
  | 0, _ => none
  | bound + 1, tokens =>
    match expect [stop] tokens with
    | some rest => some ([], rest)
    | none => do
      let (first, rest) ← item tokens
      let (others, rest) ← readUntilWithin stop item bound rest
      some (first :: others, rest)

/-- Items up to a token, which is taken as well. -/
def readUntil (stop : Token) (item : Reader α) : Reader (List α) := fun tokens =>
  readUntilWithin stop item (tokens.length + 1) tokens

/-- A name. -/
def readName : Reader String
  | .word name :: rest => some (name, rest)
  | _ => none

/-- An argument of a dimension type: a parameter, or the output of a trait. -/
def readArgument : Reader Argument
  | .word name :: rest => some (.parameter name, rest)
  | tokens => do
    let rest ← expect [.mark '<'] tokens
    let (left, rest) ← readName rest
    let rest ← expect [.word "as"] rest
    let (exponentTrait, rest) ← readName rest
    let rest ← expect [.mark '<'] rest
    let (right, rest) ← readName rest
    let rest ← expect [.mark '>', .mark '>', .mark ':', .mark ':', .word "Output"] rest
    some (.projection left exponentTrait right, rest)

/-- A dimension type. -/
def readType : Reader DimensionType := fun tokens => do
  let (system, rest) ← readName tokens
  let rest ← expect [.mark '<'] rest
  let (arguments, rest) ← readJoined (.mark ',') readArgument rest
  let rest ← expect [.mark '>'] rest
  some (⟨system, arguments⟩, rest)

/-- An operand: a dimension type or a parameter. -/
def readOperand : Reader Operand := fun tokens =>
  match readType tokens with
  | some (type, rest) => some (.dimension type, rest)
  | none => (readName tokens).map fun (name, rest) => (.parameter name, rest)

/-- A trait with or without an argument. -/
def readTrait : Reader Trait := fun tokens => do
  let (name, rest) ← readName tokens
  match expect [.mark '<'] rest with
  | none => some (⟨name, none⟩, rest)
  | some rest =>
    let (argument, rest) ← readName rest
    let rest ← expect [.mark '>'] rest
    some (⟨name, some argument⟩, rest)

/-- A condition with the comma after it. -/
def readBound : Reader Bound := fun tokens => do
  let (subject, rest) ← readArgument tokens
  let rest ← expect [.mark ':'] rest
  let (traits, rest) ← readJoined (.mark '+') readTrait rest
  let rest ← expect [.mark ','] rest
  some (⟨subject, traits⟩, rest)

/-- The implementation of an operator. -/
def readOperation : Reader Operation := fun tokens => do
  let rest ← expect [.word "impl", .mark '<'] tokens
  let (parameters, rest) ← readJoined (.mark ',') readName rest
  let rest ← expect [.mark '>'] rest
  let (dimensionTrait, rest) ← readName rest
  let rest ← expect [.mark '<'] rest
  let (operand, rest) ← readOperand rest
  let rest ← expect [.mark '>', .word "for"] rest
  let (target, rest) ← readType rest
  let rest ← expect [.word "where"] rest
  let (bounds, rest) ← readUntil (.mark '\x7b') readBound rest
  let rest ← expect [.word "type", .word "Output", .mark '='] rest
  let (output, rest) ← readType rest
  let rest ← expect [.mark ';', .mark '\x7d'] rest
  some (⟨parameters, dimensionTrait, operand, target, bounds, output⟩, rest)

/-- Implementations of operators up to the end. -/
def readOperationsWithin : Nat → List Token → Option (List Operation)
  | _, [] => some []
  | 0, _ => none
  | bound + 1, tokens => do
    let (first, rest) ← readOperation tokens
    let others ← readOperationsWithin bound rest
    some (first :: others)

/-- The implementations of operators that a text consists of. -/
def readOperations (text : String) : Option (List Operation) :=
  let found := tokens text.toList
  readOperationsWithin found.length found

/-- A token that is not there cannot be taken off. -/
theorem expect_eq_none (token : Token) (tokens : List Token) (h : tokens.head? ≠ some token) :
    expect [token] tokens = none := by
  cases tokens with
  | nil => rfl
  | cons first rest =>
    have hne : token ≠ first := by
      rintro rfl
      exact h rfl
    simp [expect, List.isPrefixOf?, hne]

/-- No more items are joined than tokens. -/
theorem length_le_joined (between : Token) (found : α → List Token) (items : List α)
    (hfound : ∀ a ∈ items, found a ≠ []) :
    items.length ≤ (joined between (items.map found)).length := by
  induction items with
  | nil => exact Nat.zero_le _
  | cons item items ih =>
    have hfirst := List.length_pos_iff.mpr (hfound item List.mem_cons_self)
    have hrest := ih fun a ha => hfound a (List.mem_cons_of_mem item ha)
    cases items with
    | nil => simpa [joined, Nat.succ_le_iff] using hfirst
    | cons next items =>
      simp only [List.map_cons, joined, List.length_append, List.length_cons] at hrest ⊢
      omega

/-- Joined items are read one after the other. -/
theorem readJoined_joined (between : Token) (item : Reader α) (found : α → List Token)
    (ends : List Token → Prop) (items : List α) (hne : items ≠ []) (rest : List Token)
    (hbetween : ∀ more, ends (between :: more)) (hrest : ends rest)
    (hstop : rest.head? ≠ some between) (hfound : ∀ a ∈ items, found a ≠ [])
    (hitem : ∀ a ∈ items, ∀ more, ends more → item (found a ++ more) = some (a, more)) :
    readJoined between item (joined between (items.map found) ++ rest) = some (items, rest) := by
  have hwithin (bound : Nat) (hbound : items.length ≤ bound) : readJoinedWithin between item bound
      (joined between (items.map found) ++ rest) = some (items, rest) := by
    induction items generalizing bound with
    | nil => contradiction
    | cons first items ih =>
      obtain ⟨bound, rfl⟩ : ∃ n, bound = n + 1 := ⟨bound - 1, by
        rw [List.length_cons] at hbound
        omega⟩
      have hfirst := hitem first List.mem_cons_self
      cases items with
      | nil =>
        simp only [List.map_cons, List.map_nil, joined, readJoinedWithin, hfirst rest hrest,
          expect_eq_none between rest hstop, bind, Option.bind]
      | cons next items =>
        have hnext := ih (by simp) (fun a ha => hfound a (List.mem_cons_of_mem first ha))
          (fun a ha => hitem a (List.mem_cons_of_mem first ha)) bound
          (by simpa using hbound)
        simp only [List.map_cons, joined, List.append_assoc, List.cons_append] at hnext ⊢
        simp only [readJoinedWithin, hfirst _ (hbetween _), expect_cons_self, expect_nil, hnext, bind,
          Option.bind]
  have hlength := length_le_joined between found items hfound
  exact hwithin _ (by rw [List.length_append]; omega)

/-- Items that begin with other tokens are read up to the token that stops them. -/
theorem readUntil_flatMap (stop : Token) (item : Reader α) (found : α → List Token)
    (items : List α) (rest : List Token)
    (hfound : ∀ a ∈ items, ∀ more, (found a ++ more).head? ≠ some stop)
    (hitem : ∀ a ∈ items, ∀ more, item (found a ++ more) = some (a, more)) :
    readUntil stop item (items.flatMap found ++ stop :: rest) = some (items, rest) := by
  have hwithin (bound : Nat) (hbound : items.length < bound) : readUntilWithin stop item bound
      (items.flatMap found ++ stop :: rest) = some (items, rest) := by
    induction items generalizing bound with
    | nil =>
      obtain ⟨bound, rfl⟩ : ∃ n, bound = n + 1 := ⟨bound - 1, by omega⟩
      simp only [List.flatMap_nil, List.nil_append, readUntilWithin, expect_cons_self, expect_nil]
    | cons first items ih =>
      rw [List.length_cons] at hbound
      obtain ⟨bound, rfl⟩ : ∃ n, bound = n + 1 := ⟨bound - 1, by omega⟩
      have hnext := ih (fun a ha => hfound a (List.mem_cons_of_mem first ha))
        (fun a ha => hitem a (List.mem_cons_of_mem first ha)) bound (by omega)
      have hfirst := List.mem_cons_self (a := first) (l := items)
      simp only [List.flatMap_cons, List.append_assoc, readUntilWithin,
        expect_eq_none stop _ (hfound first hfirst _), hitem first hfirst, hnext, bind,
        Option.bind]
  have hlength := length_le_flatMap items found fun a ha heq => hfound a ha [stop] (by simp [heq])
  apply hwithin
  rw [List.length_append]
  omega

/-- A name is read. -/
theorem readName_word (name : String) (rest : List Token) :
    readName (.word name :: rest) = some (name, rest) := rfl

/-- An argument over type parameters is read back. -/
theorem readArgument_tokens (argument : Argument) (h : argument.IsOpen) (rest : List Token) :
    readArgument (argument.tokens ++ rest) = some (argument, rest) := by
  cases argument with
  | parameter name => rfl
  | projection left exponentTrait right => rfl
  | exponent value => exact h.elim

/-- An argument over type parameters has tokens. -/
theorem argument_tokens_ne_nil (argument : Argument) (h : argument.IsOpen) :
    argument.tokens ≠ [] := by
  cases argument with
  | parameter name => exact List.cons_ne_nil _ _
  | projection left exponentTrait right => exact List.cons_ne_nil _ _
  | exponent value => exact h.elim

/-- A dimension type is read back. -/
theorem readType_tokens (t : DimensionType) (h : t.IsOpen) (hne : t.arguments ≠ [])
    (rest : List Token) : readType (t.tokens ++ rest) = some (t, rest) := by
  have harguments := readJoined_joined (.mark ',') readArgument Argument.tokens (fun _ => True)
    t.arguments hne (.mark '>' :: rest) (fun _ => trivial) trivial (by simp)
    (fun a ha => argument_tokens_ne_nil a (h.2 a ha))
    (fun a ha more _ => readArgument_tokens a (h.2 a ha) more)
  simp only [DimensionType.tokens, List.cons_append, List.nil_append, List.append_assoc, readType,
    readName_word, expect_cons_self, expect_nil, harguments, bind, Option.bind]

/-- Operands whose dimension types have arguments. -/
def Operand.IsApplied : Operand → Prop
  | dimension type => type.arguments ≠ []
  | parameter _ => True

/-- An operand is read back before the bracket that closes it. -/
theorem readOperand_tokens (operand : Operand) (h : operand.IsOpen) (hne : operand.IsApplied)
    (rest : List Token) : readOperand (operand.tokens ++ .mark '>' :: rest) =
      some (operand, .mark '>' :: rest) := by
  cases operand with
  | dimension type =>
    simp only [Operand.tokens, readOperand, readType_tokens type h hne]
  | parameter name => rfl

/-- A trait is read back where no bracket opens after it. -/
theorem readTrait_tokens (t : Trait) (rest : List Token) (hrest : rest.head? ≠ some (.mark '<')) :
    readTrait (t.tokens ++ rest) = some (t, rest) := by
  obtain ⟨name, argument⟩ := t
  cases argument with
  | none =>
    have hnone := expect_eq_none (.mark '<') rest hrest
    simp only [Trait.tokens, List.cons_append, List.nil_append, readTrait, readName_word, hnone,
      bind, Option.bind]
  | some argument => rfl

/-- A condition is read back with the comma after it. -/
theorem readBound_tokens (b : Bound) (h : b.IsOpen) (hne : b.traits ≠ []) (rest : List Token) :
    readBound ((b.tokens ++ [.mark ',']) ++ rest) = some (b, rest) := by
  have htraits := readJoined_joined (.mark '+') readTrait Trait.tokens
    (fun more => more.head? ≠ some (.mark '<')) b.traits hne (.mark ',' :: rest) (by simp) (by simp)
    (by simp)
    (fun t _ => by
      unfold Trait.tokens
      split <;> simp)
    (fun t _ more hmore => readTrait_tokens t more hmore)
  simp only [Bound.tokens, List.append_assoc, List.cons_append, List.nil_append, readBound,
    readArgument_tokens b.subject h.1, expect_cons_self, expect_nil, htraits, bind, Option.bind]

/-- Operators whose lists are not empty. -/
structure Operation.IsApplied (o : Operation) : Prop where
  parameters : o.parameters ≠ []
  operand : o.operand.IsApplied
  target : o.target.arguments ≠ []
  bounds : ∀ b ∈ o.bounds, b.traits ≠ []
  output : o.output.arguments ≠ []

/-- A condition begins with no brace. -/
theorem head_bound_tokens (b : Bound) (h : b.IsOpen) (more : List Token) :
    (b.tokens ++ [Token.mark ','] ++ more).head? ≠ some (.mark '\x7b') := by
  obtain ⟨subject, traits⟩ := b
  cases subject with
  | parameter name => simp [Bound.tokens, Argument.tokens]
  | projection left exponentTrait right => simp [Bound.tokens, Argument.tokens]
  | exponent value => exact h.1.elim

/-- The implementation of an operator is read back. -/
theorem readOperation_tokens (o : Operation) (h : o.IsOpen) (hne : o.IsApplied)
    (rest : List Token) : readOperation (o.tokens ++ rest) = some (o, rest) := by
  have hparameters (more : List Token) := readJoined_joined (.mark ',') readName
    (fun name => [.word name]) (fun _ => True) o.parameters hne.parameters (.mark '>' :: more)
    (fun _ => trivial) trivial (by simp) (by simp) (fun _ _ _ _ => rfl)
  have hbounds (more : List Token) := readUntil_flatMap (.mark '\x7b') readBound
    (fun b => b.tokens ++ [.mark ',']) o.bounds more (fun b hb => head_bound_tokens b (h.bounds b hb))
    (fun b hb => readBound_tokens b (h.bounds b hb) (hne.bounds b hb))
  simp only [Operation.tokens, List.append_assoc, List.cons_append, List.nil_append, readOperation,
    expect_cons_self, expect_nil, hparameters, readName_word,
    readOperand_tokens o.operand h.operand hne.operand,
    readType_tokens o.target h.target hne.target, hbounds,
    readType_tokens o.output h.output hne.output, bind, Option.bind]

/-- Operators, each followed by an empty line, are spelled one after the other. -/
theorem tokens_operations (operations : List Operation) (h : ∀ o ∈ operations, o.IsOpen) :
    tokens (render (operations.flatMap fun o => [.operation o, .blank])).toList =
      operations.flatMap Operation.tokens := by
  rw [render, toList_unlines]
  induction operations with
  | nil => rfl
  | cons o operations ih =>
    have hrest := ih fun other hother => h other (List.mem_cons_of_mem o hother)
    simp only [List.flatMap_cons, List.flatMap_append, List.flatMap_nil, Item.lines,
      List.append_assoc, List.nil_append, String.toList_empty]
    rw [tokens_operation o (h o List.mem_cons_self), tokens_lineFeed, hrest]

/-- A text of operators is read back. -/
theorem readOperations_render (operations : List Operation) (h : ∀ o ∈ operations, o.IsOpen)
    (hne : ∀ o ∈ operations, o.IsApplied) :
    readOperations (render (operations.flatMap fun o => [.operation o, .blank])) =
      some operations := by
  have hwithin (bound : Nat) (hbound : operations.length ≤ bound) :
      readOperationsWithin bound (operations.flatMap Operation.tokens) = some operations := by
    induction operations generalizing bound with
    | nil =>
      cases bound <;> rfl
    | cons o operations ih =>
      obtain ⟨bound, rfl⟩ : ∃ n, bound = n + 1 := ⟨bound - 1, by
        rw [List.length_cons] at hbound
        omega⟩
      have hfirst := readOperation_tokens o (h o List.mem_cons_self) (hne o List.mem_cons_self)
        (operations.flatMap Operation.tokens)
      have hrest := ih (fun other hother => h other (List.mem_cons_of_mem o hother))
        (fun other hother => hne other (List.mem_cons_of_mem o hother)) bound (by simpa using hbound)
      rw [List.flatMap_cons, readOperationsWithin]
      · simp only [hfirst, hrest, bind, Option.bind]
      · simp [Operation.tokens]
  have hlength := length_le_flatMap operations Operation.tokens fun o _ => by
    simp [Operation.tokens]
  rw [readOperations, tokens_operations operations h]
  exact hwithin _ hlength

end UnitSystems.Generated
