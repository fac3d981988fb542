import UnitSystems.Json.Value
import UnitSystems.Text.Numeral

/-!
# Reading JSON

A text is one value with white space around it. Escapes by number are UTF-16 code units, so a
character outside the first plane is written as two of them. No key and no value is judged here:
members with equal keys are all kept.
-/

namespace UnitSystems.Json

/-- White space between tokens. -/
def isSpace (c : Char) : Bool :=
  c == ' ' || c == '\n' || c == '\r' || c == '\t'

/-- A text without the white space in front of it. -/
def skipSpace (text : List Char) : List Char :=
  text.dropWhile isSpace

/-- ASCII digits. -/
def isDigit (c : Char) : Bool :=
  '0' ≤ c && c ≤ '9'

/-- The value of a hexadecimal digit. -/
def hexValue? (c : Char) : Option Nat :=
  if '0' ≤ c ∧ c ≤ '9' then some (c.toNat - 48)
  else if 'a' ≤ c ∧ c ≤ 'f' then some (c.toNat - 87)
  else if 'A' ≤ c ∧ c ≤ 'F' then some (c.toNat - 55)
  else none

/-- The value of four hexadecimal digits. -/
def hexUnit? (a b c d : Char) : Option Nat := do
  let a ← hexValue? a
  let b ← hexValue? b
  let c ← hexValue? c
  let d ← hexValue? d
  return ((a * 16 + b) * 16 + c) * 16 + d

/-- What the inside of a string is made of. -/
inductive CodeUnit
  /-- A character that stands for itself or has an escape of its own. -/
  | char (c : Char)
  /-- An escape by number. -/
  | unit (n : Nat)
  deriving DecidableEq, Repr

/-- The character of an escape that is a single letter or sign. -/
def simpleEscape? (c : Char) : Option Char :=
  if c = '"' then some '"'
  else if c = '\\' then some '\\'
  else if c = '/' then some '/'
  else if c = 'b' then some '\x08'
  else if c = 'f' then some '\x0c'
  else if c = 'n' then some '\n'
  else if c = 'r' then some '\r'
  else if c = 't' then some '\t'
  else none

/-- The inside of a string up to its closing quote, after code units already read, last first. -/
def readUnits (done : List CodeUnit) : List Char → Option (List CodeUnit × List Char)
  | [] => none
  | '"' :: rest => some (done.reverse, rest)
  | '\\' :: 'u' :: a :: b :: c :: d :: rest =>
    match hexUnit? a b c d with
    | some n => readUnits (.unit n :: done) rest
    | none => none
  | '\\' :: e :: rest =>
    match simpleEscape? e with
    | some c => readUnits (.char c :: done) rest
    | none => none
  | c :: rest => if c.toNat < 0x20 then none else readUnits (.char c :: done) rest

/-- First halves of surrogate pairs. -/
def isHighSurrogate (n : Nat) : Bool :=
  0xd800 ≤ n && n ≤ 0xdbff

/-- Second halves of surrogate pairs. -/
def isLowSurrogate (n : Nat) : Bool :=
  0xdc00 ≤ n && n ≤ 0xdfff

/-- The characters of code units, after characters already joined, last first. -/
def joinUnits (done : List Char) : List CodeUnit → Option (List Char)
  | [] => some done.reverse
  | .char c :: rest => joinUnits (c :: done) rest
  | .unit high :: .unit low :: rest =>
    if isHighSurrogate high && isLowSurrogate low then
      joinUnits (Char.ofNat (0x10000 + (high - 0xd800) * 0x400 + (low - 0xdc00)) :: done) rest
    else if isHighSurrogate high || isLowSurrogate high then none
    else joinUnits (Char.ofNat high :: done) (.unit low :: rest)
  | .unit n :: rest =>
    if isHighSurrogate n || isLowSurrogate n then none else joinUnits (Char.ofNat n :: done) rest

/-- The string after its opening quote. -/
def readString (text : List Char) : Option (Json × List Char) :=
  match readUnits [] text with
  | none => none
  | some (units, rest) =>
    match joinUnits [] units with
    | some chars => some (.string (String.ofList chars), rest)
    | none => some (.other (String.ofList ('"' :: text.take (text.length - rest.length))), rest)

/-- The length of a fraction or an exponent that begins here, if its digits are there. -/
def partLength? (isMark : Char → Bool) (isSign : Char → Bool) (text : List Char) : Option Nat :=
  match text with
  | mark :: rest =>
    if isMark mark then
      let sign := match rest with
        | c :: _ => if isSign c then 1 else 0
        | [] => 0
      let digits := ((rest.drop sign).takeWhile isDigit).length
      if digits = 0 then none else some (1 + sign + digits)
    else some 0
  | [] => some 0

/-- A number. -/
def readNumber (text : List Char) : Option (Json × List Char) :=
  let sign := if text.head? = some '-' then 1 else 0
  let digits := (text.drop sign).takeWhile isDigit
  let whole := sign + digits.length
  if digits.isEmpty || (digits.head? == some '0' && 1 < digits.length) then none
  else
    match partLength? (· == '.') (fun _ => false) (text.drop whole) with
    | none => none
    | some fraction =>
      match partLength? (fun c => c == 'e' || c == 'E') (fun c => c == '+' || c == '-')
          (text.drop (whole + fraction)) with
      | none => none
      | some exponent =>
        let literal := text.take (whole + fraction + exponent)
        let rest := text.drop (whole + fraction + exponent)
        if fraction + exponent = 0 ∧ literal ≠ ['-', '0'] then
          some (.integer (Text.integerValue literal), rest)
        else some (.other (String.ofList literal), rest)

/-- A word with a value of its own. -/
def readWord (word : List Char) (value : Json) (text : List Char) : Option (Json × List Char) :=
  (word.isPrefixOf? text).map fun rest => (value, rest)

mutual

/-- A value, after white space. The first argument bounds the work. -/
def readValue : Nat → List Char → Option (Json × List Char)
  | 0, _ => none
  | bound + 1, text =>
    match skipSpace text with
    | [] => none
    | '"' :: rest => readString rest
    | '[' :: rest =>
      match skipSpace rest with
      | ']' :: last => some (.array [], last)
      | items => (readItems bound items).map fun (items, last) => (.array items, last)
    | '\x7b' :: rest =>
      match skipSpace rest with
      | '\x7d' :: last => some (.object [], last)
      | members => (readMembers bound members).map fun (members, last) => (.object members, last)
    | c :: rest =>
      if c = 't' then readWord ['r', 'u', 'e'] (.bool true) rest
      else if c = 'f' then readWord ['a', 'l', 's', 'e'] (.bool false) rest
      else if c = 'n' then readWord ['u', 'l', 'l'] .null rest
      else readNumber (c :: rest)

/-- The items of an array that is not empty, with its closing bracket. -/
def readItems : Nat → List Char → Option (List Json × List Char)
  | 0, _ => none
  | bound + 1, text =>
    match readValue bound text with
    | none => none
    | some (item, rest) =>
      match skipSpace rest with
      | ',' :: more => (readItems bound more).map fun (items, last) => (item :: items, last)
      | ']' :: last => some ([item], last)
      | _ => none

/-- The members of an object that is not empty, with its closing brace. -/
def readMembers : Nat → List Char → Option (List (String × Json) × List Char)
  | 0, _ => none
  | bound + 1, text =>
    match skipSpace text with
    | '"' :: start =>
      match readString start with
      | some (.string key, rest) =>
        match skipSpace rest with
        | ':' :: value =>
          match readValue bound value with
          | none => none
          | some (item, rest) =>
            match skipSpace rest with
            | ',' :: more =>
              (readMembers bound more).map fun (members, last) => ((key, item) :: members, last)
            | '\x7d' :: last => some ([(key, item)], last)
            | _ => none
        | _ => none
      | _ => none
    | _ => none

end

/-- The value that a whole text denotes. -/
def parse (text : String) : Option Json :=
  let chars := text.toList
  match readValue (2 * chars.length + 2) chars with
  | some (value, rest) => if (skipSpace rest).isEmpty then some value else none
  | none => none

end UnitSystems.Json
