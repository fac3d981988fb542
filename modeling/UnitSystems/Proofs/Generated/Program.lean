import UnitSystems.Proofs.Generated.Literal
import UnitSystems.Proofs.Generated.Reader

/-!
# Reading the display

The display is read as a program: one choice for each base unit, made by the integer of a type
parameter, with branches that append to a text. The reader knows the syntax of the generated
language and decodes the literals. The display is read back with the symbols that it was written
from.
-/

namespace UnitSystems.Generated

/-- What an integer is compared with. -/
inductive Pattern
  | number (value : Nat)
  | binding (name : String)
  deriving DecidableEq, Repr

/-- What a branch does with the text. -/
inductive Action
  /-- Nothing is appended. -/
  | nothing
  /-- A literal is appended. -/
  | push (literal : String)
  /-- A template is appended, filled with a literal and the quotient of a bound integer. -/
  | pushFilled (template literal name : String) (divisor : Nat)
  deriving DecidableEq, Repr

/-- A branch of a choice. -/
structure Branch where
  pattern : Pattern
  action : Action
  deriving DecidableEq, Repr

/-- A choice between branches by the integer of a type parameter. -/
structure Choice where
  parameter : String
  branches : List Branch
  deriving DecidableEq, Repr

/-- The implementation of a display. -/
structure Program where
  parameters : List String
  target : DimensionType
  bounds : List Bound
  choices : List Choice
  deriving DecidableEq, Repr

/-- How the integer of a type parameter is asked for, up to the branches. -/
def integerTokens : List Token :=
  [.word "as", .word "ToInt", .mark '>', .mark ':', .mark ':', .word "to_int", .mark '(', .mark ')',
    .mark '\x7b']

/-- The head of the function that builds the text. -/
def functionTokens : List Token :=
  [.word "fn", .word "to_string", .mark '(', .mark ')', .mark '-', .mark '>', .word "String",
    .mark '\x7b']

/-- The text is empty at first. -/
def emptyTokens : List Token :=
  [.word "let", .word "mut", .word "text", .mark '=', .word "String", .mark ':', .mark ':',
    .word "new", .mark '(', .mark ')', .mark ';']

/-- A literal is appended to the text. -/
def pushTokens : List Token :=
  [.word "text", .mark '.', .word "push_str", .mark '(']

/-- A filled template begins. -/
def formatTokens : List Token :=
  [.mark '&', .word "format", .mark '!', .mark '(']

/-- The number that a word spells in decimal digits. -/
def numeral? (text : String) : Option Nat :=
  if text.toList.all Char.isDigit then some (Nat.ofDigitChars 10 text.toList 0) else none

/-- A decimal number. -/
def readNumber : Reader Nat
  | .word text :: rest => (numeral? text).map fun value => (value, rest)
  | _ => none

/-- A well-formed literal. -/
def readLiteral : Reader String
  | .literal raw :: rest => (decode raw).map fun text => (text, rest)
  | _ => none

/-- A pattern: a number, or a name that the integer is bound to. -/
def readPattern : Reader Pattern
  | .word text :: rest =>
    match numeral? text with
    | some value => some (.number value, rest)
    | none => if Names.isWord text.toList then some (.binding text, rest) else none
  | _ => none

/-- The arguments of a filled template, up to the comma after the branch. -/
def readFilled : Reader Action := fun tokens => do
  let (template, rest) ← readLiteral tokens
  let rest ← expect [.mark ','] rest
  let (literal, rest) ← readLiteral rest
  let rest ← expect [.mark ','] rest
  let (name, rest) ← readName rest
  let rest ← expect [.word "as", .word "f64", .mark '/'] rest
  let (divisor, rest) ← readNumber rest
  let rest ← expect [.mark '.', .word "0", .mark ')', .mark ')', .mark ','] rest
  some (.pushFilled template literal name divisor, rest)

/-- What a branch does, up to the comma after it. -/
def readAction : Reader Action := fun tokens =>
  match expect [.mark '\x7b', .mark '\x7d'] tokens with
  | some rest => some (.nothing, rest)
  | none => do
    let rest ← expect pushTokens tokens
    match expect formatTokens rest with
    | some rest => readFilled rest
    | none => do
      let (literal, rest) ← readLiteral rest
      let rest ← expect [.mark ')', .mark ','] rest
      some (.push literal, rest)

/-- A branch. -/
def readBranch : Reader Branch := fun tokens => do
  let (pattern, rest) ← readPattern tokens
  let rest ← expect [.mark '=', .mark '>'] rest
  let (action, rest) ← readAction rest
  some (⟨pattern, action⟩, rest)

/-- A choice by the integer of a type parameter. -/
def readChoice : Reader Choice := fun tokens => do
  let rest ← expect [.word "match", .mark '<'] tokens
  let (parameter, rest) ← readName rest
  let rest ← expect integerTokens rest
  let (branches, rest) ← readUntil (.mark '\x7d') readBranch rest
  some (⟨parameter, branches⟩, rest)

/-- The implementation of a display: the text is empty at first and returned at last. -/
def readProgram : Reader Program := fun tokens => do
  let rest ← expect [.word "impl", .mark '<'] tokens
  let (parameters, rest) ← readJoined (.mark ',') readName rest
  let rest ← expect [.mark '>', .word "DimToString", .word "for"] rest
  let (target, rest) ← readType rest
  let rest ← expect [.word "where"] rest
  let (bounds, rest) ← readUntil (.mark '\x7b') readBound rest
  let rest ← expect functionTokens rest
  let rest ← expect emptyTokens rest
  let (choices, rest) ← readUntil (.word "text") readChoice rest
  let rest ← expect [.mark '\x7d', .mark '\x7d'] rest
  some (⟨parameters, target, bounds, choices⟩, rest)

/-- The display that a text consists of. -/
def readDisplay (text : String) : Option Program :=
  match readProgram (tokens text.toList) with
  | some (program, []) => some program
  | _ => none

/-- A text as a literal. -/
def literalToken (text : String) : Token :=
  .literal (text.toList.flatMap Text.escapeChar)

/-- The tokens of a pattern. -/
def Pattern.tokens : Pattern → List Token
  | number value => [.word value.repr]
  | binding name => [.word name]

/-- The tokens of what a branch does. -/
def Action.tokens : Action → List Token
  | nothing => [.mark '\x7b', .mark '\x7d']
  | push literal => pushTokens ++ [literalToken literal, .mark ')', .mark ',']
  | pushFilled template literal name divisor =>
    pushTokens ++ formatTokens ++
      [literalToken template, .mark ',', literalToken literal, .mark ',', .word name, .word "as",
        .word "f64", .mark '/', .word divisor.repr, .mark '.', .word "0", .mark ')', .mark ')',
        .mark ',']

/-- The tokens of a branch. -/
def Branch.tokens (b : Branch) : List Token :=
  b.pattern.tokens ++ [.mark '=', .mark '>'] ++ b.action.tokens

/-- The tokens of a choice. -/
def Choice.tokens (c : Choice) : List Token :=
  .word "match" :: .mark '<' :: .word c.parameter :: integerTokens ++
    c.branches.flatMap Branch.tokens ++ [.mark '\x7d']

/-- The tokens of a display. -/
def Program.tokens (p : Program) : List Token :=
  let heading := joined (.mark ',') (p.parameters.map fun name => [.word name])
  let bounds := p.bounds.flatMap fun b => b.tokens ++ [.mark ',']
  .word "impl" :: .mark '<' :: heading ++ .mark '>' :: .word "DimToString" :: .word "for" ::
    p.target.tokens ++ .word "where" :: bounds ++ .mark '\x7b' :: functionTokens ++ emptyTokens ++
    p.choices.flatMap Choice.tokens ++ [.word "text", .mark '\x7d', .mark '\x7d']

/-- The template of a symbol and its exponent. -/
def template : String := "\x7b\x7d^\x7b\x7d"

/-- The template stands for itself in a literal. -/
theorem literalToken_template : literalToken template = .literal template.toList := by
  decide +kernel

/-- The choice for a base unit: nothing for zero, the symbol for one whole unit, and otherwise the
symbol with the quotient of the integer by the root. -/
def Arm.choice (a : Arm) : Choice where
  parameter := a.parameter
  branches := [⟨.number 0, .nothing⟩, ⟨.number a.root, .push a.symbol⟩,
    ⟨.binding "n", .pushFilled template a.symbol "n" a.root⟩]

/-- The display as a program. -/
def Formatter.program (f : Formatter) : Program where
  parameters := f.parameters
  target := f.target
  bounds := f.bounds
  choices := f.arms.map Arm.choice

/-- A decimal numeral is a word. -/
theorem isWordText_repr (n : Nat) : IsWordText n.repr := by
  constructor
  · intro hempty
    have hdigits := congrArg String.toList hempty
    rw [Nat.toList_repr, String.toList_empty] at hdigits
    exact Nat.toDigits_ne_nil hdigits
  · intro c hc
    rw [Nat.toList_repr] at hc
    have hdigit := Nat.isDigit_of_mem_toDigits (by decide) (by decide) hc
    simp only [Char.isDigit, Bool.and_eq_true, decide_eq_true_eq] at hdigit
    simp only [Names.isRest, Bool.or_eq_true, Bool.and_eq_true, decide_eq_true_eq]
    exact .inr hdigit

/-- A decimal numeral denotes its number. -/
theorem numeral?_repr (n : Nat) : numeral? n.repr = some n := by
  have hdigits : n.repr.toList.all Char.isDigit = true := by
    rw [Nat.toList_repr, List.all_eq_true]
    exact fun c hc => Nat.isDigit_of_mem_toDigits (by decide) (by decide) hc
  rw [numeral?, if_pos hdigits, Nat.toList_repr, Nat.ofDigitChars_ten_toDigits]

/-- The lines for a base unit are spelled with their tokens. -/
theorem tokens_arm (a : Arm) (h : IsWordText a.parameter) (rest : List Char) :
    tokens ((a.lines.flatMap fun line => line.toList ++ ['\n']) ++ rest) =
      a.choice.tokens ++ tokens rest := by
  simp only [Arm.lines, List.flatMap_cons, List.flatMap_nil, String.toList_append,
    List.append_assoc, List.nil_append]
  rw [tokens_append "        match <".toList _ [.word "match", .mark '<'],
    tokens_word_append a.parameter h " as ToInt>::to_int() \x7b".toList _ integerTokens,
    tokens_lineFeed,
    tokens_append "            0 => \x7b\x7d".toList _
      [.word "0", .mark '=', .mark '>', .mark '\x7b', .mark '\x7d'], tokens_lineFeed,
    tokens_append "            ".toList _ [],
    tokens_word_append _ (isWordText_repr a.root) " => text.push_str(".toList _
      (.mark '=' :: .mark '>' :: pushTokens), tokens_quoted,
    tokens_append "),".toList _ [.mark ')', .mark ','], tokens_lineFeed,
    tokens_append "            n => text.push_str(&format!(\"\x7b\x7d^\x7b\x7d\", ".toList _
      (.word "n" :: .mark '=' :: .mark '>' :: pushTokens ++ formatTokens ++
        [.literal template.toList, .mark ',']), tokens_quoted,
    tokens_append ", n as f64 / ".toList _
      [.mark ',', .word "n", .word "as", .word "f64", .mark '/'],
    tokens_word_append _ (isWordText_repr a.root) ".0)),".toList _
      [.mark '.', .word "0", .mark ')', .mark ')', .mark ','],
    tokens_lineFeed, tokens_append "        \x7d".toList _ [.mark '\x7d'],
    tokens_lineFeed]
  simp only [Arm.choice, Choice.tokens, Branch.tokens, Pattern.tokens, Action.tokens,
    literalToken_template, List.flatMap_cons, List.flatMap_nil, List.cons_append, List.nil_append]
  rfl

/-- The lines for base units are spelled one after the other. -/
theorem tokens_arms (arms : List Arm) (h : ∀ a ∈ arms, IsWordText a.parameter) (rest : List Char) :
    tokens (((arms.flatMap Arm.lines).flatMap fun line => line.toList ++ ['\n']) ++ rest) =
      (arms.map Arm.choice).flatMap Choice.tokens ++ tokens rest := by
  induction arms with
  | nil => rfl
  | cons a arms ih =>
    have hrest := ih fun b hb => h b (List.mem_cons_of_mem a hb)
    simp only [List.flatMap_cons, List.flatMap_append, List.map_cons, List.append_assoc]
    rw [tokens_arm a (h a List.mem_cons_self), hrest]

/-- Displays over type parameters whose names are words. -/
structure Formatter.IsOpen (f : Formatter) : Prop where
  parameters : ∀ name ∈ f.parameters, IsWordText name
  target : f.target.IsOpen
  bounds : ∀ b ∈ f.bounds, b.IsOpen
  arms : ∀ a ∈ f.arms, IsWordText a.parameter

/-- A display is spelled with its tokens. -/
theorem tokens_formatter (f : Formatter) (h : f.IsOpen) (rest : List Char) :
    tokens ((f.lines.flatMap fun line => line.toList ++ ['\n']) ++ rest) =
      f.program.tokens ++ tokens rest := by
  simp only [Formatter.lines, List.flatMap_append, List.flatMap_cons, List.flatMap_nil,
    String.toList_append, List.append_assoc, List.nil_append]
  rw [tokens_append "impl<".toList _ [.word "impl", .mark '<'],
    tokens_names f.parameters h.parameters _ (separated_append _ _),
    tokens_append "> DimToString for ".toList _ [.mark '>', .word "DimToString", .word "for"],
    tokens_type f.target h.target, tokens_lineFeed,
    tokens_append_of_word "where".toList _ [] "where" (separated_append _ _),
    tokens_lineFeed,
    tokens_lines Bound.line (fun b => b.tokens ++ [.mark ',']) f.bounds
      (fun b hb rest _ => tokens_bound_line b (h.bounds b hb) rest),
    tokens_append "\x7b".toList _ [.mark '\x7b'], tokens_lineFeed,
    tokens_append "    fn to_string() -> String \x7b".toList _ functionTokens, tokens_lineFeed,
    tokens_append "        let mut text = String::new();".toList _ emptyTokens, tokens_lineFeed,
    tokens_arms f.arms h.arms,
    tokens_append_of_word "        text".toList _ [] "text" (separated_append _ _), tokens_lineFeed,
    tokens_append "    \x7d".toList _ [.mark '\x7d'], tokens_lineFeed,
    tokens_append "\x7d".toList _ [.mark '\x7d'], tokens_lineFeed]
  simp only [Formatter.program, Program.tokens, List.append_assoc, List.cons_append, List.nil_append]

/-- Patterns that are read as they are spelled: a binding is a name and no number. -/
def Pattern.IsOpen : Pattern → Prop
  | number _ => True
  | binding name => numeral? name = none ∧ Names.isWord name.toList = true

/-- Displays that are read as they are spelled. -/
structure Program.IsOpen (p : Program) : Prop where
  parameters : p.parameters ≠ []
  target : p.target.IsOpen ∧ p.target.arguments ≠ []
  bounds : ∀ b ∈ p.bounds, b.IsOpen ∧ b.traits ≠ []
  choices : ∀ c ∈ p.choices, ∀ b ∈ c.branches, b.pattern.IsOpen

/-- A literal is read. -/
theorem readLiteral_literalToken (text : String) (rest : List Token) :
    readLiteral (literalToken text :: rest) = some (text, rest) := by
  simp only [literalToken, readLiteral, decode_escaped, Option.map_some]

/-- A pattern is read back. -/
theorem readPattern_tokens (p : Pattern) (h : p.IsOpen) (rest : List Token) :
    readPattern (p.tokens ++ rest) = some (p, rest) := by
  cases p with
  | number value =>
    simp only [Pattern.tokens, List.cons_append, List.nil_append, readPattern, numeral?_repr]
  | binding name =>
    simp only [Pattern.tokens, List.cons_append, List.nil_append, readPattern, h.1, h.2, ↓reduceIte]

/-- The arguments of a filled template are read back. -/
theorem readFilled_tokens (template literal name : String) (divisor : Nat) (rest : List Token) :
    readFilled (literalToken template :: .mark ',' :: literalToken literal :: .mark ',' ::
        .word name :: .word "as" :: .word "f64" :: .mark '/' :: .word divisor.repr :: .mark '.' ::
        .word "0" :: .mark ')' :: .mark ')' :: .mark ',' :: rest) =
      some (.pushFilled template literal name divisor, rest) := by
  simp only [readFilled, readLiteral_literalToken, expect_cons_self, expect_nil, readName_word,
    readNumber, numeral?_repr, Option.map_some, bind, Option.bind]

/-- What a branch does is read back. -/
theorem readAction_tokens (action : Action) (rest : List Token) :
    readAction (action.tokens ++ rest) = some (action, rest) := by
  have hsome (more : List Token) :
      expect [.mark '\x7b', .mark '\x7d'] (pushTokens ++ more) = none := rfl
  cases action with
  | nothing => rfl
  | push literal =>
    have hplain (more : List Token) : expect formatTokens (literalToken literal :: more) = none := rfl
    simp only [Action.tokens, List.append_assoc, List.cons_append, List.nil_append, readAction,
      hsome, expect_append, hplain, readLiteral_literalToken, expect_cons_self, expect_nil, bind,
      Option.bind]
  | pushFilled template literal name divisor =>
    simp only [Action.tokens, List.append_assoc, List.cons_append, List.nil_append, readAction,
      hsome, expect_append, readFilled_tokens, bind, Option.bind]

/-- A branch is read back. -/
theorem readBranch_tokens (b : Branch) (h : b.pattern.IsOpen) (rest : List Token) :
    readBranch (b.tokens ++ rest) = some (b, rest) := by
  simp only [Branch.tokens, List.append_assoc, List.cons_append, List.nil_append, readBranch,
    readPattern_tokens b.pattern h, expect_cons_self, expect_nil, readAction_tokens, bind,
    Option.bind]

/-- A choice is read back. -/
theorem readChoice_tokens (c : Choice) (h : ∀ b ∈ c.branches, b.pattern.IsOpen)
    (rest : List Token) : readChoice (c.tokens ++ rest) = some (c, rest) := by
  have hhead (b : Branch) (more : List Token) : (b.tokens ++ more).head? ≠ some (.mark '\x7d') := by
    obtain ⟨pattern, action⟩ := b
    cases pattern <;> simp [Branch.tokens, Pattern.tokens]
  have hbranches := readUntil_flatMap (.mark '\x7d') readBranch Branch.tokens c.branches rest
    (fun b _ => hhead b) (fun b hb => readBranch_tokens b (h b hb))
  simp only [Choice.tokens, List.append_assoc, List.cons_append, List.nil_append, readChoice,
    expect_cons_self, expect_nil, readName_word, expect_append, hbranches, bind, Option.bind]

/-- A display is read back. -/
theorem readProgram_tokens (p : Program) (h : p.IsOpen) (rest : List Token) :
    readProgram (p.tokens ++ rest) = some (p, rest) := by
  have hparameters (more : List Token) := readJoined_joined (.mark ',') readName
    (fun name => [.word name]) (fun _ => True) p.parameters h.parameters (.mark '>' :: more)
    (fun _ => trivial) trivial (by simp) (by simp) (fun _ _ _ _ => rfl)
  have hbounds (more : List Token) := readUntil_flatMap (.mark '\x7b') readBound
    (fun b => b.tokens ++ [.mark ',']) p.bounds more
    (fun b hb => head_bound_tokens b (h.bounds b hb).1)
    (fun b hb => readBound_tokens b (h.bounds b hb).1 (h.bounds b hb).2)
  have hchoices (more : List Token) := readUntil_flatMap (.word "text") readChoice Choice.tokens
    p.choices more (fun c _ _ => by simp [Choice.tokens])
    (fun c hc => readChoice_tokens c (h.choices c hc))
  simp only [Program.tokens, List.append_assoc, List.cons_append, List.nil_append, readProgram,
    expect_cons_self, expect_nil, hparameters, readType_tokens p.target h.target.1 h.target.2,
    hbounds, expect_append, hchoices, bind, Option.bind]

end UnitSystems.Generated
