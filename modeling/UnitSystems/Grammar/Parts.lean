import UnitSystems.Grammar.Attempts
import UnitSystems.Text.Numeral

/-!
# The grammar of definition files and of expressions

A definition file is a sequence of systems, each a name and directives on lines of their own.
An expression is a product of powers of base units. The parts are listed in the order in which a
message about a failure names them.
-/

namespace UnitSystems.Grammar

/-- The named parts of both texts. -/
inductive Part
  | endOfText
  | keyword
  | identifier
  | integer
  | positive
  | string
  | stringInner
  | bareSymbol
  | symbol
  | restOfLine
  | systemWord
  | outputWord
  | scalarWord
  | unitlessWord
  | rootWord
  | unitsWord
  | symbolsWord
  | constantsWord
  | extraWord
  | identifierList
  | symbolList
  | systemName
  | output
  | scalar
  | scalarType
  | unitless
  | root
  | units
  | symbols
  | constants
  | extra
  | system
  | unitsFile
  | one
  | exponent
  | factor
  | operator
  | expression
  deriving DecidableEq, Repr

namespace Part

/-- All parts in the order of messages. -/
def all : List Part :=
  [endOfText, keyword, identifier, integer, positive, string, stringInner, bareSymbol, symbol,
    restOfLine, systemWord, outputWord, scalarWord, unitlessWord, rootWord, unitsWord, symbolsWord,
    constantsWord, extraWord, identifierList, symbolList, systemName, output, scalar, scalarType,
    unitless, root, units, symbols, constants, extra, system, unitsFile, one, exponent, factor,
    operator, expression]

/-- The name of a part in messages. -/
def name : Part → String
  | endOfText => "EOI"
  | keyword => "keyword"
  | identifier => "identifier"
  | integer => "integer"
  | positive => "positive"
  | string => "string"
  | stringInner => "string_inner"
  | bareSymbol => "bare_symbol"
  | symbol => "symbol"
  | restOfLine => "rest_of_line"
  | systemWord => "kw_system"
  | outputWord => "kw_output"
  | scalarWord => "kw_scalar"
  | unitlessWord => "kw_unitless"
  | rootWord => "kw_root"
  | unitsWord => "kw_units"
  | symbolsWord => "kw_symbols"
  | constantsWord => "kw_constants"
  | extraWord => "kw_extra"
  | identifierList => "identifier_list"
  | symbolList => "symbol_list"
  | systemName => "system_decl"
  | output => "output_decl"
  | scalar => "scalar_decl"
  | scalarType => "scalar_type"
  | unitless => "unitless_decl"
  | root => "root_decl"
  | units => "units_decl"
  | symbols => "symbols_decl"
  | constants => "constants_decl"
  | extra => "extra_decl"
  | system => "system"
  | unitsFile => "units_file"
  | one => "dim_one"
  | exponent => "dim_exponent"
  | factor => "dim_factor"
  | operator => "dim_operator"
  | expression => "dim_expression"

end Part

/-- Names joined as a choice: `a`, `a or b`, `a, b, or c`. -/
def choice (names : List String) : String :=
  match names.reverse with
  | [] => ""
  | [only] => only
  | [second, first] => first ++ " or " ++ second
  | last :: others => Text.listed others.reverse ++ ", or " ++ last

/-- The message for the parts tried, each named once. -/
def expectation (tried : List Part) : String :=
  "expected " ++ choice ((Part.all.filter (tried.contains ·)).map Part.name)

/-- Letters of the ASCII alphabet. -/
def isLetter (c : Char) : Bool :=
  ('a' ≤ c && c ≤ 'z') || ('A' ≤ c && c ≤ 'Z')

/-- ASCII digits. -/
def isDigit (c : Char) : Bool :=
  '0' ≤ c && c ≤ '9'

/-- ASCII digits but zero. -/
def isNonzeroDigit (c : Char) : Bool :=
  '1' ≤ c && c ≤ '9'

/-- Characters that an identifier begins with. -/
def isNameStart (c : Char) : Bool :=
  isLetter c || c == '_'

/-- Characters that an identifier goes on with. -/
def isNameChar (c : Char) : Bool :=
  isLetter c || isDigit c || c == '_'

/-- Characters of a quoted text that stand for themselves. -/
def isPlainInQuotes (c : Char) : Bool :=
  c != '"' && c != '\\' && !isLineBreak c

/-- Characters of a symbol without quotes. -/
def isBare (c : Char) : Bool :=
  c != ',' && c != '#' && c != '"' && !isBlank c && !isLineBreak c

/-- Characters of a value that runs to the end of the line or to a comment. -/
def isValue (c : Char) : Bool :=
  !isLineBreak c && c != '#'

/-- The words that begin a directive. -/
def directiveWords : List String :=
  ["output", "scalar", "unitless", "root", "units", "symbols", "constants", "extra"]

namespace Form

/-- A fixed text, given as a string. -/
def text (s : String) : Pattern Part :=
  .word s.toList

/-- The first of several patterns that can be read. -/
def firstOf : Pattern Part → List (Pattern Part) → Pattern Part
  | p, [] => p
  | p, q :: rest => .either p (firstOf q rest)

/-- One or more characters of a class. -/
def someOf (isMember : Char → Bool) : Pattern Part :=
  .joined (.one isMember) (.run isMember)

/-- A fixed word that no character of an identifier follows. -/
def wholeWord (p : Pattern Part) : Pattern Part :=
  .joined p (.notAhead (.one isNameChar))

/-- The word that begins a system or one that begins a directive. -/
def keyword : Pattern Part :=
  .leaf .keyword <| wholeWord <| firstOf (text "system") (directiveWords.map text)

/-- A line break in any of its three forms. -/
def lineBreak : Pattern Part :=
  firstOf (text "\n") [text "\r\n", text "\r"]

/-- An identifier that is no keyword. -/
def identifier : Pattern Part :=
  .leaf .identifier <|
    .joined (.notAhead keyword) (.joined (.one isNameStart) (.run isNameChar))

/-- An integer with an optional minus sign. -/
def integer : Pattern Part :=
  .leaf .integer <| .joined (.optional (text "-")) (someOf isDigit)

/-- A positive integer without leading zeros. -/
def positive : Pattern Part :=
  .leaf .positive <| .joined (.one isNonzeroDigit) (.run isDigit)

/-- The inside of a quoted text, where a backslash takes the next character along. -/
def stringInner : Pattern Part :=
  .leaf .stringInner <| .many <|
    .either (.joined (text "\\") (.one fun _ => true)) (someOf isPlainInQuotes)

/-- A quoted text. -/
def string : Pattern Part :=
  .branch .string <| .joined (text "\"") (.joined stringInner (text "\""))

/-- A symbol without quotes, which is no keyword. -/
def bareSymbol : Pattern Part :=
  .leaf .bareSymbol <| .joined (.notAhead keyword) (someOf isBare)

/-- A symbol with or without quotes. -/
def symbol : Pattern Part :=
  .branch .symbol <| .either string bareSymbol

/-- A value up to the end of the line or to a comment. -/
def restOfLine : Pattern Part :=
  .leaf .restOfLine <| someOf isValue

/-- Items with commas between them, and perhaps one after the last. Lines may break after a
comma that an item follows. -/
def commaList (item : Pattern Part) : Pattern Part :=
  .spaced item <| .spaced
    (.spacedMany (.spaced (text ",") (.spaced (.spacedMany lineBreak) item)))
    (.optional (text ","))

/-- A list of identifiers. -/
def identifierList : Pattern Part :=
  .branch .identifierList (commaList identifier)

/-- A list of symbols. -/
def symbolList : Pattern Part :=
  .branch .symbolList (commaList symbol)

/-- The word of a declaration. -/
def declarationWord (name : Part) (word : String) : Pattern Part :=
  .leaf name (wholeWord (text word))

/-- The name of a type with the modules that it lies in. -/
def scalarType : Pattern Part :=
  .leaf .scalarType <| .joined (.optional (text "::")) <| .joined (.one isNameStart) <|
    .joined (.run isNameChar) <|
      .many (.joined (text "::") (.joined (.one isNameStart) (.run isNameChar)))

/-- The declaration that begins a system. -/
def systemName : Pattern Part :=
  .branch .systemName <| .spaced (declarationWord .systemWord "system") identifier

/-- The directive for the place of the generated file. -/
def output : Pattern Part :=
  .branch .output <| .spaced (declarationWord .outputWord "output") string

/-- The directive for the scalar type and its literal one. -/
def scalar : Pattern Part :=
  .branch .scalar <| .spaced (declarationWord .scalarWord "scalar") <|
    .spaced scalarType (.optional (.spaced (text "=") restOfLine))

/-- The directive for the dimensionless constant. -/
def unitless : Pattern Part :=
  .branch .unitless <| .spaced (declarationWord .unitlessWord "unitless") identifier

/-- The directive for the allowed root. -/
def root : Pattern Part :=
  .branch .root <| .spaced (declarationWord .rootWord "root") integer

/-- The directive for the names of the base units. -/
def units : Pattern Part :=
  .branch .units <| .spaced (declarationWord .unitsWord "units") identifierList

/-- The directive for the symbols of the base units. -/
def symbols : Pattern Part :=
  .branch .symbols <| .spaced (declarationWord .symbolsWord "symbols") symbolList

/-- The directive for the constants of the base units. -/
def constants : Pattern Part :=
  .branch .constants <| .spaced (declarationWord .constantsWord "constants") identifierList

/-- The directive for an extra constant. -/
def extra : Pattern Part :=
  .branch .extra <| .spaced (declarationWord .extraWord "extra") <|
    .spaced identifier (.spaced (text "=") restOfLine)

/-- Any directive. -/
def directive : Pattern Part :=
  firstOf output [scalar, unitless, root, units, symbols, constants, extra]

/-- One or more line breaks, with blank and comment lines among them. -/
def lineBreaks : Pattern Part :=
  .spaced lineBreak (.spacedMany lineBreak)

/-- A system: its name, and directives on later lines. -/
def system : Pattern Part :=
  .branch .system <| .spaced systemName (.spacedMany (.spaced lineBreaks directive))

/-- The end of the text as a named part. -/
def endOfText : Pattern Part :=
  .leaf .endOfText .finish

/-- A whole definition file. -/
def unitsFile : Pattern Part :=
  .branch .unitsFile <| .spaced (.word []) <| .spaced (.spacedMany lineBreak) <|
    .spaced (.spacedMany (.spaced system (.spacedMany lineBreak))) endOfText

/-- The literal one of an expression. -/
def one : Pattern Part :=
  .leaf .one <| .joined (text "1") (.notAhead (.one isDigit))

/-- An integer with an optional denominator. -/
def ratio : Pattern Part :=
  .spaced integer (.optional (.spaced (text "/") positive))

/-- The exponent of a factor, perhaps in parentheses. -/
def exponent : Pattern Part :=
  .branch .exponent <|
    .either (.spaced (text "(") (.spaced integer
      (.spaced (.optional (.spaced (text "/") positive)) (text ")")))) ratio

/-- A power of a base unit or of one. -/
def factor : Pattern Part :=
  .branch .factor <|
    .spaced (.either identifier one) (.optional (.spaced (text "^") exponent))

/-- The sign between two factors. -/
def operator : Pattern Part :=
  .branch .operator <| .either (text "*") (text "/")

/-- A whole expression. -/
def expression : Pattern Part :=
  .branch .expression <| .spaced (.word []) <| .spaced factor <|
    .spaced (.spacedMany (.spaced operator factor)) endOfText

end Form

end UnitSystems.Grammar
