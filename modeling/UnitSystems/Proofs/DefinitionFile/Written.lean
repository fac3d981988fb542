import UnitSystems.DefinitionFile
import UnitSystems.Proofs.Grammar.Words

/-!
# The written form of definitions

The text that an author would write for a definition: the name of the system, and then every
directive on a line of its own, a list without items left out. Symbols and the output stand
between quotes, where the quote, the backslash and the two line breaks have a backslash in front.

A definition can be written when its names are names of the format, its scalar type is a path of
the grammar, and its literal and the values of its extra constants fill a line as they are.
Symbols, output and root are free.
-/

namespace UnitSystems

open Grammar

/-- How one character stands between the quotes of a definition file. -/
def writtenChar (c : Char) : List Char :=
  if c = '\\' then ['\\', '\\']
  else if c = '"' then ['\\', '"']
  else if c = '\n' then ['\\', 'n']
  else if c = '\r' then ['\\', '\r']
  else [c]

/-- A text between the quotes of a definition file. -/
def writtenQuoted (text : String) : List Char :=
  '"' :: (text.toList.flatMap writtenChar ++ ['"'])

/-- Items with a comma and a blank between them. -/
def writtenList : List (List Char) → List Char
  | [] => []
  | first :: rest => first ++ rest.flatMap fun item => ',' :: ' ' :: item

namespace Directive

/-- What stands after the word of a directive. -/
def argument : Directive → List Char
  | output target => writtenQuoted target
  | scalar type (some literal) => type.toList ++ " = ".toList ++ literal.toList
  | scalar type none => type.toList
  | unitless name => name.toList
  | root digits => digits.toList
  | units names => writtenList (names.map String.toList)
  | symbols texts => writtenList (texts.map writtenQuoted)
  | constants names => writtenList (names.map String.toList)
  | extra constant => constant.name.toList ++ " = ".toList ++ constant.expression.toList

/-- The line of a directive. -/
def written (directive : Directive) : List Char :=
  directive.word.toList ++ ' ' :: directive.argument

end Directive

namespace Definition

/-- The directives of a definition, in the order in which they are written. -/
def directives (d : Definition) : List Directive :=
  d.output.toList.map Directive.output ++
    [Directive.scalar d.scalarType (some d.identityLiteral), Directive.unitless d.unitlessConstant,
      Directive.root d.allowedRoot.toInt.repr] ++
    (if d.units = [] then [] else [Directive.units d.units]) ++
    (if d.symbols = [] then [] else [Directive.symbols d.symbols]) ++
    (if d.constants = [] then [] else [Directive.constants d.constants]) ++
    d.extraConstants.map Directive.extra

/-- The lines of a definition, without the line feed after the last one. -/
def written (d : Definition) : List Char :=
  "system ".toList ++ d.name.toList ++ d.directives.flatMap fun directive =>
    '\n' :: directive.written

end Definition

/-- The text of a definition file: the lines of the definitions in order, each ended by a line
feed. -/
def DefinitionFile.written (definitions : List Definition) : String :=
  String.ofList (definitions.flatMap fun d => d.written ++ ['\n'])

/-- Paths of types, as the grammar has them. -/
def IsTypePath (path : String) : Prop :=
  ∃ pieces, Form.scalarType.read path.toList = some (pieces, [])

/-- Values that fill a line as they are: not empty, without white space at their ends, and without
line breaks or comments. -/
def IsLineValue (value : String) : Prop :=
  value ≠ "" ∧ Text.trimmed value = value ∧ ∀ c ∈ value.toList, c ≠ '\n' ∧ c ≠ '\r' ∧ c ≠ '#'

instance (value : String) : Decidable (IsLineValue value) :=
  decidable_of_iff (value ≠ "" ∧ Text.trimmed value = value ∧
    value.toList.all (fun c => c != '\n' && c != '\r' && c != '#') = true)
    (by simp [IsLineValue, and_assoc])

/-- Definitions with a written form. -/
structure Definition.IsWritable (d : Definition) : Prop where
  name : IsName d.name
  units : ∀ unit ∈ d.units, IsName unit
  constants : ∀ constant ∈ d.constants, IsName constant
  unitlessConstant : IsName d.unitlessConstant
  scalarType : IsTypePath d.scalarType
  identityLiteral : IsLineValue d.identityLiteral
  extraConstants : ∀ extra ∈ d.extraConstants, IsName extra.name ∧ IsLineValue extra.expression

/-- Directives with a written form. -/
def Directive.IsWritable : Directive → Prop
  | output _ => True
  | scalar type literal => IsTypePath type ∧ ∀ value ∈ literal, IsLineValue value
  | unitless name => IsName name
  | root digits => ∃ value : Int64, digits = value.toInt.repr
  | units names => names ≠ [] ∧ ∀ name ∈ names, IsName name
  | symbols texts => texts ≠ []
  | constants names => names ≠ [] ∧ ∀ name ∈ names, IsName name
  | extra constant => IsName constant.name ∧ IsLineValue constant.expression

/-- Every directive of a definition with a written form has one. -/
theorem Definition.IsWritable.directives (d : Definition) (hd : d.IsWritable)
    (directive : Directive) (hdirective : directive ∈ d.directives) : directive.IsWritable := by
  simp only [Definition.directives, List.mem_append, List.mem_map, Option.mem_toList,
    List.mem_cons, List.not_mem_nil, or_false] at hdirective
  rcases hdirective with
    ((((⟨target, -, rfl⟩ | rfl | rfl | rfl) | hunits) | hsymbols) | hconstants) | ⟨extra, he, rfl⟩
  · trivial
  · exact ⟨hd.scalarType, by simpa using hd.identityLiteral⟩
  · exact hd.unitlessConstant
  · exact ⟨d.allowedRoot, rfl⟩
  · split at hunits
    · simp at hunits
    · next hne =>
      rw [List.mem_singleton] at hunits
      exact hunits ▸ ⟨hne, hd.units⟩
  · split at hsymbols
    · simp at hsymbols
    · next hne =>
      rw [List.mem_singleton] at hsymbols
      exact hsymbols ▸ hne
  · split at hconstants
    · simp at hconstants
    · next hne =>
      rw [List.mem_singleton] at hconstants
      exact hconstants ▸ ⟨hne, hd.constants⟩
  · exact hd.extraConstants extra he

/-- A character stands for itself between quotes exactly when the grammar reads it as plain. -/
theorem writtenChar_of_plain (c : Char) (hc : isPlainInQuotes c = true) : writtenChar c = [c] := by
  simp only [isPlainInQuotes, isLineBreak, Bool.and_eq_true, bne_iff_ne, Bool.not_eq_true',
    Bool.or_eq_false_iff, beq_eq_false_iff_ne] at hc
  simp [writtenChar, hc]

/-- Every other character stands as a backslash and one more character. -/
theorem writtenChar_of_not_plain (c : Char) (hc : isPlainInQuotes c = false) :
    ∃ escape, writtenChar c = ['\\', escape] ∧ ∀ rest,
      resolveEscapes ('\\' :: escape :: rest) = c :: resolveEscapes rest := by
  unfold writtenChar
  split
  · next h => exact ⟨'\\', rfl, fun rest => by subst h; rfl⟩
  split
  · next h => exact ⟨'"', rfl, fun rest => by subst h; rfl⟩
  split
  · next h => exact ⟨'n', rfl, fun rest => by subst h; rfl⟩
  split
  · next h => exact ⟨'\r', rfl, fun rest => by subst h; rfl⟩
  · exfalso
    simp_all [isPlainInQuotes, isLineBreak]

/-- Resolving the escapes of a written text gives the text back. -/
theorem resolveEscapes_written (text : List Char) :
    resolveEscapes (text.flatMap writtenChar) = text := by
  induction text with
  | nil => rfl
  | cons c text ih =>
    rw [List.flatMap_cons]
    cases hc : isPlainInQuotes c with
    | true =>
      have hplain : c ≠ '\\' := by
        rintro rfl
        exact absurd hc (by decide)
      rw [writtenChar_of_plain c hc, List.singleton_append, resolveEscapes, ih] <;> simp [hplain]
    | false =>
      obtain ⟨escape, hwritten, hresolve⟩ := writtenChar_of_not_plain c hc
      rw [hwritten, List.cons_append, List.singleton_append, hresolve, ih]

end UnitSystems
