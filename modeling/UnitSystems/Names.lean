import UnitSystems.Definition

/-!
# Names of the generated language

Which names a generated file may declare. An identifier is a word of ASCII letters, digits and
underscores that begins with no digit, is not the single underscore and is no keyword. A type
name must further differ from every name that the generated file uses for its own items.
-/

namespace UnitSystems.Names

/-- Letters of the ASCII alphabet and the underscore. -/
def isStart (c : Char) : Bool :=
  ('a' ≤ c && c ≤ 'z') || ('A' ≤ c && c ≤ 'Z') || c == '_'

/-- Characters that a word goes on with. -/
def isRest (c : Char) : Bool :=
  isStart c || ('0' ≤ c && c ≤ '9')

/-- A word: one starting character and any number of others. -/
def isWord : List Char → Bool
  | [] => false
  | c :: rest => isStart c && rest.all isRest

/-- Words with a meaning of their own in the generated language. -/
def keywords : List String :=
  ["as", "async", "await", "break", "const", "continue", "crate", "dyn", "else", "enum", "extern",
    "false", "fn", "for", "gen", "if", "impl", "in", "let", "loop", "match", "mod", "move", "mut",
    "pub", "ref", "return", "self", "Self", "static", "struct", "super", "trait", "true", "try",
    "type", "unsafe", "use", "where", "while", "abstract", "become", "box", "do", "final", "macro",
    "override", "priv", "typeof", "unsized", "virtual", "yield"]

/-- Names that the generated file declares or imports for its own use. -/
def reserved : List String :=
  ["RHS", unitlessName, "Zero", "Succ", "Pred", "Dim", "PhantomData", "Dimension",
    "Dimensionless", "DimToString", "KeepDim", "AddDim", "SubDim", "MulDim", "DivDim", "Peano",
    "KeepPeano", "AddPeano", "SubPeano", "MulPeano", "DivPeano", "ToInt", "String"]

/-- Types that need no import. -/
def primitives : List String :=
  ["bool", "char", "str", "u8", "u16", "u32", "u64", "u128", "usize", "i8", "i16", "i32", "i64",
    "i128", "isize", "f32", "f64"]

/-- Names that a generated file can declare. -/
def isIdentifier (name : String) : Bool :=
  name != "_" && isWord name.toList && !keywords.contains name

/-- The segments of a path, between its double colons. -/
def segments : List Char → List (List Char)
  | [] => [[]]
  | ':' :: ':' :: rest => [] :: segments rest
  | c :: rest =>
    match segments rest with
    | [] => [[c]]
    | segment :: others => (c :: segment) :: others

/-- A path without the double colon in front of it. -/
def relative : List Char → List Char
  | ':' :: ':' :: rest => rest
  | path => path

/-- Paths of types: words between double colons, perhaps with a double colon in front. -/
def isTypePath (path : String) : Bool :=
  (segments (relative path.toList)).all isWord

/-- The text up to the first double colon. -/
def beforeColons : List Char → List Char
  | [] => []
  | ':' :: ':' :: _ => []
  | c :: rest => c :: beforeColons rest

/-- The text after the last double colon. -/
def lastSegment (path : String) : String :=
  String.ofList (beforeColons path.toList.reverse).reverse

/-- Type names that the generated file relies on, given the path of the scalar type. -/
def isReserved (name scalarType : String) : Bool :=
  reserved.contains name || primitives.contains name || lastSegment scalarType == name

/-- What is appended to a unit for the left operand of a combination. -/
def leftSuffix : String := "1"

/-- What is appended to a unit for the right operand of a combination. -/
def rightSuffix : String := "2"

end UnitSystems.Names
