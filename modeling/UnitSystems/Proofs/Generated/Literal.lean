import UnitSystems.Proofs.Generated.Token

/-!
# Literals of the generated language

What a literal between double quotes denotes. After a backslash stand a short escape, a byte below
128 in two hexadecimal digits, a code point in up to six of them between braces, or a line feed,
which is left out with the white space after it. A quoted text is scanned as one literal, and this
literal denotes the text.
-/

namespace UnitSystems.Generated

/-- Where the decoder of a literal stands: outside an escape, after a backslash, in the white space
after a line that goes on, before the two digits of a byte, before its second digit, before the
brace of a code point, or among its digits. -/
inductive Decoder
  | plain
  | escape
  | blank
  | byte
  | byteAfter (high : Nat)
  | brace
  | point (count value : Nat)
  deriving DecidableEq, Repr

/-- The value of a hexadecimal digit. -/
def hexadecimalDigit? (c : Char) : Option Nat :=
  if '0' ≤ c ∧ c ≤ '9' then some (c.toNat - '0'.toNat)
  else if 'a' ≤ c ∧ c ≤ 'f' then some (c.toNat - 'a'.toNat + 10)
  else if 'A' ≤ c ∧ c ≤ 'F' then some (c.toNat - 'A'.toNat + 10)
  else none

/-- The character that a short escape stands for. -/
def shortEscape? (c : Char) : Option Char :=
  if c = 'n' then some '\n'
  else if c = 'r' then some '\r'
  else if c = 't' then some '\t'
  else if c = '0' then some '\x00'
  else if c = '\\' ∨ c = '"' ∨ c = '\x27' then some c
  else none

namespace Decoder

/-- A character outside an escape. -/
def start (c : Char) : Option (List Char × Decoder) :=
  if c = '\\' then some ([], escape)
  else if c = '"' ∨ c = '\r' then none
  else some ([c], plain)

/-- A character after a backslash. -/
def escaped (c : Char) : Option (List Char × Decoder) :=
  match shortEscape? c with
  | some meaning => some ([meaning], plain)
  | none =>
    if c = 'x' then some ([], byte)
    else if c = 'u' then some ([], brace)
    else if c = '\n' then some ([], blank)
    else none

/-- One character: the characters it completes and where the decoder goes, if it is allowed. -/
def step : Decoder → Char → Option (List Char × Decoder)
  | plain, c => start c
  | escape, c => escaped c
  | blank, c =>
    if c = ' ' ∨ c = '\t' ∨ c = '\n' ∨ c = '\r' then some ([], blank) else start c
  | byte, c => do
    let high ← hexadecimalDigit? c
    if high < 8 then some ([], byteAfter high) else none
  | byteAfter high, c => do
    let low ← hexadecimalDigit? c
    some ([Char.ofNat (16 * high + low)], plain)
  | brace, c => if c = '\x7b' then some ([], point 0 0) else none
  | point count value, c =>
    if c = '\x7d' then
      if 0 < count ∧ value.isValidChar then some ([Char.ofNat value], plain) else none
    else if c = '_' ∧ 0 < count then some ([], point count value)
    else do
      let digit ← hexadecimalDigit? c
      if count < 6 then some ([], point (count + 1) (16 * value + digit)) else none

/-- What the rest of a literal denotes, if it is well-formed. -/
def run : Decoder → List Char → Option (List Char)
  | plain, [] => some []
  | blank, [] => some []
  | _, [] => none
  | decoder, c :: rest => do
    let (found, next) ← decoder.step c
    let more ← next.run rest
    some (found ++ more)

/-- A character that completes nothing. -/
theorem run_of_step (decoder next : Decoder) (c : Char) (h : decoder.step c = some ([], next))
    (rest : List Char) : decoder.run (c :: rest) = next.run rest := by
  simp only [run, h, bind, Option.bind, List.nil_append]
  cases next.run rest <;> rfl

end Decoder

/-- The text that a literal denotes, given what stands between its quotes. -/
def decode (raw : List Char) : Option String :=
  (Decoder.plain.run raw).map String.ofList

/-- Digits of hexadecimal numerals have their values. -/
theorem hexadecimalDigit?_digitChar :
    ∀ n < 16, hexadecimalDigit? (Nat.digitChar n) = some n := by
  decide

/-- No digit of a hexadecimal numeral has a meaning of its own in a literal. -/
theorem digitChar_ne :
    ∀ n < 16, Nat.digitChar n ≠ '"' ∧ Nat.digitChar n ≠ '\\' ∧ Nat.digitChar n ≠ '\x7d' ∧
      Nat.digitChar n ≠ '_' := by
  decide

/-- The characters of a hexadecimal numeral are digits. -/
theorem exists_of_mem_toDigits (n : Nat) :
    ∀ c ∈ Nat.toDigits 16 n, ∃ digit < 16, c = Nat.digitChar digit := by
  induction n using Nat.strongRecOn with
  | ind n ih =>
    intro c hc
    by_cases hn : n < 16
    · rw [Nat.toDigits_of_lt_base hn, List.mem_singleton] at hc
      exact ⟨n, hn, hc⟩
    · rw [Nat.toDigits_of_base_le (by decide) (by omega), List.mem_append,
        List.mem_singleton] at hc
      rcases hc with hc | rfl
      · exact ih (n / 16) (by omega) c hc
      · exact ⟨n % 16, by omega, rfl⟩

/-- A digit of a code point is collected. -/
theorem run_point_digit (count value digit : Nat) (hcount : count < 6) (hdigit : digit < 16)
    (rest : List Char) : (Decoder.point count value).run (Nat.digitChar digit :: rest) =
      (Decoder.point (count + 1) (16 * value + digit)).run rest := by
  obtain ⟨-, -, hclose, hunderscore⟩ := digitChar_ne digit hdigit
  refine Decoder.run_of_step _ _ _ ?_ rest
  simp only [Decoder.step, hclose, hunderscore, ↓reduceIte, false_and,
    hexadecimalDigit?_digitChar digit hdigit, hcount, bind, Option.bind]

/-- The digits of a code point are collected, the last one last. -/
theorem run_point_toDigits (n : Nat) (hlength : (Nat.toDigits 16 n).length ≤ 6) (rest : List Char) :
    (Decoder.point 0 0).run (Nat.toDigits 16 n ++ rest) =
      (Decoder.point (Nat.toDigits 16 n).length n).run rest := by
  induction n using Nat.strongRecOn generalizing rest with
  | ind n ih =>
    by_cases hn : n < 16
    · rw [Nat.toDigits_of_lt_base hn, List.singleton_append,
        run_point_digit 0 0 n (by decide) hn rest]
      simp
    · have hdigits : Nat.toDigits 16 n = Nat.toDigits 16 (n / 16) ++ [Nat.digitChar (n % 16)] :=
        Nat.toDigits_of_base_le (by decide) (by omega)
      rw [hdigits, List.length_append, List.length_singleton] at hlength ⊢
      rw [List.append_assoc, ih (n / 16) (by omega) (by omega), List.singleton_append,
        run_point_digit _ _ _ (by omega) (by omega), Nat.div_add_mod]

/-- The code point of a character has at most six hexadecimal digits. -/
theorem length_hexadecimal_le (c : Char) : (Text.hexadecimal c).length ≤ 6 := by
  rw [Text.hexadecimal, Nat.length_toDigits_le_iff (by decide) (by decide)]
  have hvalid : c.toNat.isValidChar := c.valid
  unfold Nat.isValidChar at hvalid
  omega

/-- An escape by code point denotes its character. -/
theorem run_escapeByNumber (c : Char) (rest : List Char) :
    Decoder.plain.run (Text.escapeByNumber c ++ rest) =
      (Decoder.plain.run rest).map (c :: ·) := by
  have hopen : ∀ more, Decoder.plain.run ('\\' :: 'u' :: '\x7b' :: more) =
      (Decoder.point 0 0).run more := by
    intro more
    rw [Decoder.run_of_step .plain .escape _ (by decide),
      Decoder.run_of_step .escape .brace _ (by decide),
      Decoder.run_of_step .brace (.point 0 0) _ (by decide)]
  have hpositive : 0 < (Nat.toDigits 16 c.toNat).length := Nat.length_toDigits_pos
  have hvalid : c.toNat.isValidChar := c.valid
  have hclose : (Decoder.point (Nat.toDigits 16 c.toNat).length c.toNat).step '\x7d' =
      some ([c], .plain) := by
    simp only [Decoder.step, ↓reduceIte, hpositive, hvalid, and_self, Char.ofNat_toNat]
  simp only [Text.escapeByNumber, List.append_assoc, List.cons_append, List.nil_append]
  rw [hopen, Text.hexadecimal, run_point_toDigits _ (length_hexadecimal_le c)]
  simp only [Decoder.run, hclose, bind, Option.bind]
  cases Decoder.plain.run rest <;> rfl

/-- An escape denotes its character. -/
theorem run_escapeChar (c : Char) (rest : List Char) :
    Decoder.plain.run (Text.escapeChar c ++ rest) = (Decoder.plain.run rest).map (c :: ·) := by
  have hshort : ∀ letter meaning, Decoder.escape.step letter = some ([meaning], .plain) →
      Decoder.plain.run ('\\' :: letter :: rest) =
        (Decoder.plain.run rest).map (meaning :: ·) := by
    intro letter meaning h
    rw [Decoder.run_of_step .plain .escape _ (by decide)]
    simp only [Decoder.run, h, bind, Option.bind]
    cases Decoder.plain.run rest <;> rfl
  unfold Text.escapeChar
  split
  · next h => exact h ▸ hshort '0' '\x00' (by decide)
  split
  · next h => exact h ▸ hshort 't' '\t' (by decide)
  split
  · next h => exact h ▸ hshort 'r' '\r' (by decide)
  split
  · next h => exact h ▸ hshort 'n' '\n' (by decide)
  split
  · next h => exact h ▸ hshort '\\' '\\' (by decide)
  split
  · next h => exact h ▸ hshort '"' '"' (by decide)
  split
  · exact run_escapeByNumber c rest
  · next hreturn _ hbackslash hquote _ =>
    have hplain : Decoder.plain.step c = some ([c], .plain) := by
      simp only [Decoder.step, Decoder.start, hbackslash, hquote, hreturn, or_self, ↓reduceIte]
    simp only [List.cons_append, List.nil_append, Decoder.run, hplain, bind, Option.bind]
    cases Decoder.plain.run rest <;> rfl

/-- The literal of a text denotes the text. -/
theorem decode_escaped (text : String) :
    decode (text.toList.flatMap Text.escapeChar) = some text := by
  have hrun : ∀ chars : List Char,
      Decoder.plain.run (chars.flatMap Text.escapeChar) = some chars := by
    intro chars
    induction chars with
    | nil => rfl
    | cons c chars ih => rw [List.flatMap_cons, run_escapeChar, ih, Option.map_some]
  rw [decode, hrun, Option.map_some, String.ofList_toList]

/-- Characters without a meaning of their own are collected into a literal. -/
theorem run_literal (raw more : List Char) (h : ∀ c ∈ more, c ≠ '"' ∧ c ≠ '\\') :
    (Scan.literal raw).run more = ([], .literal (raw ++ more)) := by
  induction more generalizing raw with
  | nil => rw [List.append_nil]; rfl
  | cons c more ih =>
    rw [List.forall_mem_cons] at h
    simp only [Scan.run, Scan.step, h.1.1, h.1.2, ↓reduceIte, ih _ h.2, List.nil_append,
      List.append_assoc, List.cons_append]

/-- An escape does not end the literal. -/
theorem run_literal_escapeChar (raw : List Char) (c : Char) :
    (Scan.literal raw).run (Text.escapeChar c) = ([], .literal (raw ++ Text.escapeChar c)) := by
  have hshort : ∀ letter, (Scan.literal raw).run ['\\', letter] =
      ([], .literal (raw ++ ['\\', letter])) := by
    intro letter
    simp [Scan.run, Scan.step]
  unfold Text.escapeChar
  iterate 6
    split
    · exact hshort _
  next hbackslash hquote =>
  split
  · have hpoint : ∀ other ∈ '\x7b' :: (Text.hexadecimal c ++ ['\x7d']),
        other ≠ '"' ∧ other ≠ '\\' := by
      intro other hother
      simp only [List.mem_cons, List.mem_append, List.not_mem_nil, or_false] at hother
      rcases hother with rfl | hother | rfl
      · decide
      · obtain ⟨digit, hdigit, rfl⟩ := exists_of_mem_toDigits _ _ hother
        exact ⟨(digitChar_ne digit hdigit).1, (digitChar_ne digit hdigit).2.1⟩
      · decide
    have hsplit : Text.escapeByNumber c =
        ['\\', 'u'] ++ '\x7b' :: (Text.hexadecimal c ++ ['\x7d']) := rfl
    rw [hsplit, Scan.run_append, hshort, run_literal _ _ hpoint, List.append_assoc]
    rfl
  · exact run_literal raw [c] (by simpa using ⟨hquote, hbackslash⟩)

/-- A quoted text is scanned as one literal. -/
theorem tokens_quoted (text : String) (rest : List Char) :
    tokens ((Text.quoted text).toList ++ rest) =
      .literal (text.toList.flatMap Text.escapeChar) :: tokens rest := by
  have hrun : ∀ (raw chars : List Char), (Scan.literal raw).run (chars.flatMap Text.escapeChar) =
      ([], .literal (raw ++ chars.flatMap Text.escapeChar)) := by
    intro raw chars
    induction chars generalizing raw with
    | nil => rw [List.flatMap_nil, List.append_nil]; rfl
    | cons c chars ih =>
      rw [List.flatMap_cons, Scan.run_append, run_literal_escapeChar, ih, List.append_assoc]
      rfl
  have hopen : Scan.between.step '"' = ([], .literal []) := by decide
  have hclose (raw : List Char) : (Scan.literal raw).step '"' = ([.literal raw], .between) := rfl
  refine tokens_append _ rest [.literal _] ?_
  simp only [Text.quoted, String.toList_ofList, Scan.run, hopen, Scan.run_append, hrun, hclose,
    List.nil_append, List.append_nil]

end UnitSystems.Generated
