import UnitSystems.Json.Printer
import UnitSystems.Json.Reader
import UnitSystems.Proofs.Text.Integers

/-!
# Reading written JSON

The reader undoes the printer. A string is read escape by escape, whatever characters it holds. A
number is read to its end before anything that no number goes on with, and a value over several
lines is read before any text that may follow a value. What is only kept as it was written is left
out.
-/

namespace UnitSystems.Json

/-- Values without a part that is only kept as it was written. -/
inductive IsUnderstood : Json → Prop
  | null : IsUnderstood .null
  | bool (value : Bool) : IsUnderstood (.bool value)
  | integer (value : Int) : IsUnderstood (.integer value)
  | string (value : String) : IsUnderstood (.string value)
  | array (items : List Json) (hitems : ∀ item ∈ items, IsUnderstood item) :
      IsUnderstood (.array items)
  | object (members : List (String × Json)) (hmembers : ∀ member ∈ members, IsUnderstood member.2) :
      IsUnderstood (.object members)

/-- The two last digits of an escape by number give a control back. -/
theorem hexUnit?_control :
    ∀ n < 0x20, hexUnit? '0' '0' (hexDigit (n / 16)) (hexDigit (n % 16)) = some n := by
  decide

/-- A character is read as itself or, if it is a control, as its number. -/
theorem readUnits_escapeChar (c : Char) :
    ∃ unit, (unit = .char c ∨ unit = .unit c.toNat ∧ c.toNat < 0x20) ∧
      ∀ done rest, readUnits done (escapeChar c ++ rest) = readUnits (unit :: done) rest := by
  unfold escapeChar
  iterate 7
    split
    · next h => exact ⟨.char c, .inl rfl, fun _ _ => by subst h; rfl⟩
  next hquote hbackslash _ _ _ _ _ =>
  split
  · next hcontrol =>
    refine ⟨.unit c.toNat, .inr ⟨rfl, hcontrol⟩, fun done rest => ?_⟩
    simp only [List.cons_append, List.nil_append, readUnits, hexUnit?_control _ hcontrol]
  · next hprinted =>
    refine ⟨.char c, .inl rfl, fun done rest => ?_⟩
    rw [List.singleton_append, readUnits, if_neg hprinted]
    all_goals simp_all

/-- A control is joined as its character. -/
theorem joinUnits_control (done : List Char) (c : Char) (h : c.toNat < 0x20)
    (units : List CodeUnit) :
    joinUnits done (.unit c.toNat :: units) = joinUnits (c :: done) units := by
  have hhigh : isHighSurrogate c.toNat = false := by
    simp only [isHighSurrogate, Bool.and_eq_false_iff, decide_eq_false_iff_not]
    omega
  have hlow : isLowSurrogate c.toNat = false := by
    simp only [isLowSurrogate, Bool.and_eq_false_iff, decide_eq_false_iff_not]
    omega
  match units with
  | [] => simp [joinUnits, hhigh, hlow]
  | .char _ :: _ => simp [joinUnits, hhigh, hlow]
  | .unit _ :: _ =>
    rw [joinUnits, hhigh, Bool.false_and, if_neg Bool.false_ne_true, hlow, Bool.or_self,
      if_neg Bool.false_ne_true, Char.ofNat_toNat]

/-- The inside of a written string is read to its closing quote, and the code units are joined to
the characters of the string. -/
theorem readUnits_escaped (chars rest : List Char) :
    ∃ units, (∀ done, readUnits done (chars.flatMap escapeChar ++ '"' :: rest) =
        some (done.reverse ++ units, rest)) ∧
      ∀ done, joinUnits done units = some (done.reverse ++ chars) := by
  induction chars with
  | nil => exact ⟨[], fun done => by simp [readUnits], fun done => by simp [joinUnits]⟩
  | cons c chars ih =>
    obtain ⟨units, hread, hjoin⟩ := ih
    obtain ⟨unit, hunit, hescape⟩ := readUnits_escapeChar c
    refine ⟨unit :: units, fun done => ?_, fun done => ?_⟩
    · rw [List.flatMap_cons, List.append_assoc, hescape, hread, List.reverse_cons,
        List.append_assoc, List.singleton_append]
    · have hstep : joinUnits done (unit :: units) = joinUnits (c :: done) units := by
        rcases hunit with rfl | ⟨rfl, hcontrol⟩
        · rfl
        · exact joinUnits_control done c hcontrol units
      rw [hstep, hjoin, List.reverse_cons, List.append_assoc, List.singleton_append]

/-- A written string is read back. -/
theorem readString_stringText (value : String) (rest : List Char) :
    ∃ inside, (stringText value).toList = '"' :: inside ∧
      readString (inside ++ rest) = some (.string value, rest) := by
  refine ⟨value.toList.flatMap escapeChar ++ ['"'], String.toList_ofList, ?_⟩
  obtain ⟨units, hread, hjoin⟩ := readUnits_escaped value.toList rest
  simp only [readString, List.append_assoc, List.singleton_append, hread, List.reverse_nil,
    List.nil_append, hjoin, String.ofList_toList]

/-- Texts that may follow a number: they begin with nothing that a number goes on with. -/
def EndsNumber (text : List Char) : Prop :=
  ∀ c, text.head? = some c → isDigit c = false ∧ c ≠ '.' ∧ c ≠ 'e' ∧ c ≠ 'E'

/-- A part that does not begin here has no length. -/
theorem partLength?_eq_zero (isMark isSign : Char → Bool) (text : List Char)
    (h : ∀ c, text.head? = some c → isMark c = false) : partLength? isMark isSign text = some 0 := by
  cases text with
  | nil => rfl
  | cons c text => simp only [partLength?, h c rfl, Bool.false_eq_true, ↓reduceIte]

/-- Only the decimal digits of zero begin with a zero. -/
theorem eq_zero_of_head?_toDigits (n : Nat) (h : (Nat.toDigits 10 n).head? = some '0') : n = 0 := by
  refine Decidable.byContradiction fun hne => ?_
  obtain ⟨first, digits, hdigits, hfirst⟩ := exists_toDigits_eq_cons n (by omega)
  rw [hdigits] at h
  obtain rfl := Option.some.inj h
  exact absurd hfirst (by decide)

/-- Digits in front of what ends a number are all of its digits. -/
theorem takeWhile_isDigit (digits rest : List Char) (hdigits : ∀ c ∈ digits, isDigit c = true)
    (hrest : EndsNumber rest) : (digits ++ rest).takeWhile isDigit = digits := by
  rw [List.takeWhile_append_of_pos hdigits]
  cases rest with
  | nil => rw [List.takeWhile_nil, List.append_nil]
  | cons c rest => rw [List.takeWhile_cons, (hrest c rfl).1, if_neg Bool.false_ne_true,
      List.append_nil]

/-- A sign and digits are read as an integer before what ends a number. -/
theorem readNumber_digits (sign digits rest : List Char) (hsign : sign = [] ∨ sign = ['-'])
    (hdigits : ∀ c ∈ digits, isDigit c = true) (hne : digits ≠ [])
    (hzero : digits.head? = some '0' → digits.length = 1 ∧ sign = [])
    (hrest : EndsNumber rest) : readNumber (sign ++ digits ++ rest) =
      some (.integer (Text.integerValue (sign ++ digits)), rest) := by
  obtain ⟨first, more, rfl⟩ := List.exists_cons_of_ne_nil hne
  have hfirst : first ≠ '-' := by
    rintro rfl
    exact absurd (hdigits _ List.mem_cons_self) (by decide)
  have hlength : (if (sign ++ first :: more ++ rest).head? = some '-' then 1 else 0) =
      sign.length := by
    rcases hsign with rfl | rfl
    · simp [hfirst]
    · rfl
  have hdrop : (sign ++ first :: more ++ rest).drop sign.length = first :: more ++ rest := by
    rw [List.append_assoc, List.drop_left]
  have hwhole : (sign ++ first :: more ++ rest).drop (sign.length + (first :: more).length) =
      rest := by
    rw [← List.length_append, List.drop_left]
  have htake : (sign ++ first :: more ++ rest).take (sign.length + (first :: more).length) =
      sign ++ first :: more := by
    rw [← List.length_append, List.take_left]
  have hfraction : partLength? (· == '.') (fun _ => false) rest = some 0 :=
    partLength?_eq_zero _ _ _ fun c hc => by simpa using (hrest c hc).2.1
  have hexponent : partLength? (fun c => c == 'e' || c == 'E') (fun c => c == '+' || c == '-')
      rest = some 0 :=
    partLength?_eq_zero _ _ _ fun c hc => by simpa using (hrest c hc).2.2
  have hproper : ((first :: more).isEmpty ||
      ((first :: more).head? == some '0' && decide (1 < (first :: more).length))) = false := by
    rw [List.isEmpty_cons, Bool.false_or, Bool.and_eq_false_imp, beq_iff_eq, decide_eq_false_iff_not]
    exact fun hhead => by rw [(hzero hhead).1]; exact Nat.lt_irrefl 1
  have hliteral : sign ++ first :: more ≠ ['-', '0'] := by
    rcases hsign with rfl | rfl
    · simp [hfirst]
    · intro heq
      obtain ⟨rfl, rfl⟩ := List.cons.inj (List.cons.inj heq).2
      exact absurd (hzero rfl).2 (List.cons_ne_nil _ _)
  simp only [readNumber, hlength, hdrop, takeWhile_isDigit _ _ hdigits hrest, hproper,
    Bool.false_eq_true, ↓reduceIte, hwhole, hfraction, Nat.add_zero, hexponent, htake, hliteral,
    ne_eq, not_false_eq_true, and_self]

/-- The written form of an integer is read back before what ends a number. -/
theorem readNumber_repr (n : Int) (rest : List Char) (hrest : EndsNumber rest) :
    readNumber (n.repr.toList ++ rest) = some (.integer n, rest) := by
  have hdigits : ∀ c ∈ Nat.toDigits 10 n.natAbs, isDigit c = true := fun c hc =>
    isDigit_of_mem_toDigits n.natAbs c hc
  have hread := readNumber_digits (if n < 0 then ['-'] else []) (Nat.toDigits 10 n.natAbs) rest
    (by split <;> simp) hdigits (List.ne_nil_of_length_pos Nat.length_toDigits_pos) ?_ hrest
  · rwa [← toList_repr, integerValue_repr] at hread
  · intro hhead
    obtain rfl := Int.natAbs_eq_zero.mp (eq_zero_of_head?_toDigits _ hhead)
    exact ⟨rfl, rfl⟩

/-! ### Layout -/

/-- White space in front makes no difference. -/
theorem skipSpace_append (blanks text : List Char) (h : ∀ c ∈ blanks, isSpace c = true) :
    skipSpace (blanks ++ text) = skipSpace text :=
  List.dropWhile_append_of_pos h

/-- Nothing is skipped in front of a text that begins with no white space. -/
theorem skipSpace_cons (c : Char) (text : List Char) (h : isSpace c = false) :
    skipSpace (c :: text) = c :: text :=
  List.dropWhile_cons_of_neg (by rw [h]; exact Bool.false_ne_true)

/-- A value is read after white space. -/
theorem readValue_append (bound : Nat) (blanks text : List Char)
    (h : ∀ c ∈ blanks, isSpace c = true) :
    readValue bound (blanks ++ text) = readValue bound text := by
  cases bound with
  | zero => rfl
  | succ bound => rw [readValue, readValue, skipSpace_append blanks text h]

/-- Items are read after white space. -/
theorem readItems_append (bound : Nat) (blanks text : List Char)
    (h : ∀ c ∈ blanks, isSpace c = true) :
    readItems bound (blanks ++ text) = readItems bound text := by
  cases bound with
  | zero => rfl
  | succ bound => rw [readItems, readItems, readValue_append bound blanks text h]

/-- Members are read after white space. -/
theorem readMembers_append (bound : Nat) (blanks text : List Char)
    (h : ∀ c ∈ blanks, isSpace c = true) :
    readMembers bound (blanks ++ text) = readMembers bound text := by
  cases bound with
  | zero => rfl
  | succ bound => rw [readMembers, readMembers, skipSpace_append blanks text h]

/-- A line break and indentation are white space. -/
theorem isSpace_of_mem_newLine (level : Nat) : ∀ c ∈ (newLine level).toList, isSpace c = true := by
  intro c hc
  rw [newLine, String.toList_append, List.mem_append, String.toList_join, List.mem_flatMap] at hc
  rcases hc with hbreak | ⟨blanks, hblanks, hc⟩
  · exact List.all_eq_true.mp (by decide : "\n".toList.all isSpace = true) c hbreak
  · obtain rfl := List.eq_of_mem_replicate hblanks
    exact List.all_eq_true.mp (by decide : "  ".toList.all isSpace = true) c hc

/-- What stands in a block after its first line. -/
def linesAfter (level : Nat) (closing : Char) : List String → List Char
  | [] => (newLine level).toList ++ [closing]
  | line :: lines =>
    ',' :: ((newLine (level + 1)).toList ++ (line.toList ++ linesAfter level closing lines))

/-- A block with a line begins with it. -/
theorem toList_block (opening closing : String) (first last : Char)
    (hopening : opening.toList = [first]) (hclosing : closing.toList = [last]) (level : Nat)
    (line : String) (lines : List String) : (block opening closing level (line :: lines)).toList =
      first :: ((newLine (level + 1)).toList ++ (line.toList ++ linesAfter level last lines)) := by
  have hlines : (("," ++ newLine (level + 1)).intercalate (line :: lines)).toList ++
      ((newLine level).toList ++ [last]) = line.toList ++ linesAfter level last lines := by
    induction lines generalizing line with
    | nil => simp [linesAfter]
    | cons next lines ih =>
      rw [String.intercalate_cons_cons, linesAfter, ← ih next]
      simp [String.toList_append]
  simp only [block, String.toList_append, hopening, hclosing, List.append_assoc, hlines,
    List.cons_append, List.nil_append]

/-- After a line of a block a number is over. -/
theorem endsNumber_linesAfter (level : Nat) (closing : Char) (lines : List String)
    (rest : List Char) : EndsNumber (linesAfter level closing lines ++ rest) := by
  intro c hc
  cases lines with
  | nil =>
    obtain rfl : '\n' = c := by simpa [linesAfter, newLine, String.toList_append] using hc
    decide
  | cons line lines =>
    obtain rfl : ',' = c := Option.some.inj hc
    decide

/-- Characters that an integer begins with. -/
def StartsInteger (c : Char) : Prop :=
  c = '-' ∨ isDigit c = true

/-- The written form of an integer begins with a minus sign or a digit. -/
theorem exists_repr_eq_cons (n : Int) :
    ∃ c text, n.repr.toList = c :: text ∧ StartsInteger c := by
  obtain ⟨first, digits, hdigits⟩ := List.exists_cons_of_length_pos
    (Nat.length_toDigits_pos (b := 10) (n := n.natAbs))
  rw [toList_repr]
  split
  · exact ⟨'-', _, rfl, .inl rfl⟩
  · refine ⟨first, digits, hdigits, .inr ?_⟩
    exact isDigit_of_mem_toDigits n.natAbs first (hdigits ▸ List.mem_cons_self)

/-- An integer begins with no white space, and no other value begins like it. -/
theorem StartsInteger.ne (c : Char) (h : StartsInteger c) :
    isSpace c = false ∧ ∀ other ∈ "\"[]\x7btfn".toList, c ≠ other := by
  have hall : (" \n\r\t\"[]\x7btfn".toList.all fun other =>
      other != '-' && !isDigit other) = true := by decide
  have hother (other : Char) (hmem : other ∈ " \n\r\t\"[]\x7btfn".toList) :
      ¬(other = '-' ∨ isDigit other = true) := by
    simpa using List.all_eq_true.mp hall other hmem
  refine ⟨?_, ?_⟩
  · rw [Bool.eq_false_iff]
    intro hspace
    refine hother c ?_ h
    simp only [isSpace, Bool.or_eq_true, beq_iff_eq, or_assoc] at hspace
    rcases hspace with rfl | rfl | rfl | rfl <;> decide
  · rintro other hmem rfl
    exact hother c (List.mem_append_right " \n\r\t".toList hmem) h

/-- A value that begins like an integer is read as a number. -/
theorem readValue_number (bound : Nat) (c : Char) (text : List Char) (h : StartsInteger c) :
    readValue (bound + 1) (c :: text) = readNumber (c :: text) := by
  obtain ⟨hspace, hne⟩ := h.ne
  have hne (other : Char) (hother : other ∈ "\"[]\x7btfn".toList) : c ≠ other := hne other hother
  rw [readValue, skipSpace_cons c text hspace]
  split
  · next heq => exact absurd heq (List.cons_ne_nil _ _)
  · next heq => exact absurd (List.cons.inj heq).1 (hne '"' (by decide))
  · next heq => exact absurd (List.cons.inj heq).1 (hne '[' (by decide))
  · next heq => exact absurd (List.cons.inj heq).1 (hne '\x7b' (by decide))
  · next heq =>
    obtain ⟨rfl, rfl⟩ := List.cons.inj heq
    rw [if_neg (hne 't' (by decide)), if_neg (hne 'f' (by decide)), if_neg (hne 'n' (by decide))]

/-- The written form of an integer is read back as a value before what ends a number. -/
theorem readValue_repr (bound : Nat) (n : Int) (rest : List Char) (hrest : EndsNumber rest) :
    readValue (bound + 1) (n.repr.toList ++ rest) = some (.integer n, rest) := by
  obtain ⟨c, text, htext, hc⟩ := exists_repr_eq_cons n
  rw [← readNumber_repr n rest hrest, htext, List.cons_append]
  exact readValue_number bound c _ hc

/-- An array with an item is read item by item. -/
theorem readValue_items (bound : Nat) (blanks : List Char) (hblanks : ∀ c ∈ blanks, isSpace c = true)
    (c : Char) (text : List Char) (hspace : isSpace c = false) (hclosing : c ≠ ']') :
    readValue (bound + 1) ('[' :: (blanks ++ c :: text)) =
      (readItems bound (c :: text)).map fun (items, last) => (.array items, last) := by
  simp only [readValue, skipSpace_cons '[' _ (by decide), skipSpace_append _ _ hblanks,
    skipSpace_cons c text hspace]
  split
  · next heq => exact absurd (List.cons.inj heq).1 hclosing
  · rfl

/-- An object with a member is read member by member. -/
theorem readValue_members (bound : Nat) (blanks : List Char)
    (hblanks : ∀ c ∈ blanks, isSpace c = true) (text : List Char) :
    readValue (bound + 1) ('\x7b' :: (blanks ++ '"' :: text)) =
      (readMembers bound ('"' :: text)).map fun (members, last) => (.object members, last) := by
  simp only [readValue, skipSpace_cons '\x7b' _ (by decide), skipSpace_append _ _ hblanks,
    skipSpace_cons '"' _ (by decide)]
  rfl

/-- The text of a value begins with no white space and no closing bracket. -/
theorem exists_prettyAt_eq_cons (value : Json) (h : value.IsUnderstood) (level : Nat) :
    ∃ c text, (prettyAt level value).toList = c :: text ∧ isSpace c = false ∧ c ≠ ']' := by
  have hblock (opening closing : String) (c : Char) (hopening : opening.toList = [c])
      (lines : List String) :
      ∃ text, (block opening closing level lines).toList = c :: text := by
    cases lines <;> simp [block, String.toList_append, hopening]
  cases h with
  | null => exact ⟨'n', "ull".toList, by rw [prettyAt]; rfl, by decide, by decide⟩
  | bool value =>
    cases value with
    | false => exact ⟨'f', "alse".toList, by rw [prettyAt]; rfl, by decide, by decide⟩
    | true => exact ⟨'t', "rue".toList, by rw [prettyAt]; rfl, by decide, by decide⟩
  | integer n =>
    obtain ⟨c, text, htext, hc⟩ := exists_repr_eq_cons n
    refine ⟨c, text, by rw [prettyAt, htext], ?_⟩
    exact ⟨hc.ne.1, hc.ne.2 _ (by decide)⟩
  | string value =>
    obtain ⟨inside, htext, -⟩ := readString_stringText value []
    exact ⟨'"', inside, by rw [prettyAt, htext], by decide, by decide⟩
  | array items =>
    obtain ⟨text, htext⟩ := hblock "[" "]" '[' rfl (prettyItems (level + 1) items)
    exact ⟨'[', text, by rw [prettyAt, htext], by decide, by decide⟩
  | object members =>
    obtain ⟨text, htext⟩ := hblock "\x7b" "\x7d" '\x7b' rfl (prettyMembers (level + 1) members)
    exact ⟨'\x7b', text, by rw [prettyAt, htext], by decide, by decide⟩

/-- A value is read back from its text before anything that may follow a value. -/
def IsReadBack (value : Json) : Prop :=
  ∀ level bound rest, EndsNumber rest →
    2 * ((prettyAt level value).toList ++ rest).length ≤ bound →
      readValue bound ((prettyAt level value).toList ++ rest) = some (value, rest)

/-- Items are read back one by one. -/
theorem readItems_lines (item : Json) (items : List Json)
    (h : ∀ other ∈ item :: items, other.IsReadBack) (level bound : Nat) (rest : List Char)
    (hbound : 2 * ((prettyAt (level + 1) item).toList ++ (linesAfter level ']'
      (prettyItems (level + 1) items) ++ rest)).length + 1 ≤ bound) :
    readItems bound ((prettyAt (level + 1) item).toList ++ (linesAfter level ']'
      (prettyItems (level + 1) items) ++ rest)) = some (item :: items, rest) := by
  induction items generalizing item bound with
  | nil =>
    obtain ⟨bound, rfl⟩ := Nat.exists_eq_add_of_le' (Nat.le_of_add_left_le hbound)
    have hread := h item List.mem_cons_self (level + 1) bound _
      (endsNumber_linesAfter level ']' [] rest) (by
        rw [prettyItems] at hbound
        omega)
    rw [prettyItems, readItems, hread]
    simp only [linesAfter, List.append_assoc, skipSpace_append _ _ (isSpace_of_mem_newLine level)]
    rfl
  | cons next items ih =>
    rw [List.forall_mem_cons] at h
    obtain ⟨bound, rfl⟩ := Nat.exists_eq_add_of_le' (Nat.le_of_add_left_le hbound)
    have hread := h.1 (level + 1) bound _ (endsNumber_linesAfter level ']'
      (prettyItems (level + 1) (next :: items)) rest) (by omega)
    have hrest := ih next h.2 bound (by
      rw [prettyItems, linesAfter] at hbound
      simp only [List.length_append, List.length_cons] at hbound ⊢
      omega)
    rw [readItems, hread]
    simp only [prettyItems, linesAfter, List.cons_append, List.append_assoc,
      skipSpace_cons ',' _ (by decide), readItems_append _ _ _ (isSpace_of_mem_newLine _), hrest,
      Option.map_some]

/-- A key and its value are read, and then the other members behind a comma or the closing brace. -/
theorem readMembers_succ (bound : Nat) (key : String) (value : Json) (text tail : List Char)
    (hread : readValue bound (text ++ tail) = some (value, tail)) :
    (∀ more, skipSpace tail = ',' :: more →
      readMembers (bound + 1) ((stringText key).toList ++ (':' :: ' ' :: (text ++ tail))) =
        (readMembers bound more).map fun found => ((key, value) :: found.1, found.2)) ∧
    ∀ last, skipSpace tail = '\x7d' :: last →
      readMembers (bound + 1) ((stringText key).toList ++ (':' :: ' ' :: (text ++ tail))) =
        some ([(key, value)], last) := by
  obtain ⟨inside, hkey, hstring⟩ := readString_stringText key (':' :: ' ' :: (text ++ tail))
  have hblank : readValue bound (' ' :: (text ++ tail)) = some (value, tail) := by
    rw [← hread]
    exact readValue_append bound [' '] _ (List.forall_mem_singleton.mpr rfl)
  rw [hkey, List.cons_append, readMembers]
  simp only [skipSpace_cons '"' _ (by decide), hstring, skipSpace_cons ':' _ (by decide), hblank]
  constructor
  · intro more hmore
    simp only [hmore]
  · intro last hlast
    simp only [hlast]

/-- Members are read back one by one. -/
theorem readMembers_lines (member : String × Json) (members : List (String × Json))
    (h : ∀ other ∈ member :: members, other.2.IsReadBack) (level bound : Nat) (rest : List Char)
    (hbound : 2 * ((stringText member.1).toList ++ (':' :: ' ' ::
      ((prettyAt (level + 1) member.2).toList ++ (linesAfter level '\x7d'
        (prettyMembers (level + 1) members) ++ rest)))).length + 1 ≤ bound) :
    readMembers bound ((stringText member.1).toList ++ (':' :: ' ' ::
      ((prettyAt (level + 1) member.2).toList ++ (linesAfter level '\x7d'
        (prettyMembers (level + 1) members) ++ rest)))) = some (member :: members, rest) := by
  induction members generalizing member bound with
  | nil =>
    obtain ⟨bound, rfl⟩ := Nat.exists_eq_add_of_le' (Nat.le_of_add_left_le hbound)
    have hread := h member List.mem_cons_self (level + 1) bound _
      (endsNumber_linesAfter level '\x7d' (prettyMembers (level + 1) []) rest) (by
        simp only [List.length_append, List.length_cons] at hbound ⊢
        omega)
    refine (readMembers_succ bound member.1 member.2 _ _ hread).2 rest ?_
    rw [prettyMembers, linesAfter, List.append_assoc,
      skipSpace_append _ _ (isSpace_of_mem_newLine level)]
    exact skipSpace_cons '\x7d' rest (by decide)
  | cons next members ih =>
    rw [List.forall_mem_cons] at h
    obtain ⟨bound, rfl⟩ := Nat.exists_eq_add_of_le' (Nat.le_of_add_left_le hbound)
    have hread := h.1 (level + 1) bound _ (endsNumber_linesAfter level '\x7d'
      (prettyMembers (level + 1) (next :: members)) rest) (by
        simp only [List.length_append, List.length_cons] at hbound ⊢
        omega)
    have hrest := ih next h.2 bound (by
      simp only [prettyMembers, linesAfter, List.length_append, List.length_cons,
        String.toList_append] at hbound ⊢
      omega)
    have hcolon : ": ".toList = [':', ' '] := rfl
    have hmore : skipSpace (linesAfter level '\x7d' (prettyMembers (level + 1) (next :: members)) ++
        rest) = ',' :: ((newLine (level + 1)).toList ++ ((stringText next.1).toList ++ (':' :: ' ' ::
          ((prettyAt (level + 1) next.2).toList ++ (linesAfter level '\x7d'
            (prettyMembers (level + 1) members) ++ rest))))) := by
      rw [prettyMembers, linesAfter, List.cons_append, skipSpace_cons ',' _ (by decide)]
      simp only [String.toList_append, hcolon, List.append_assoc, List.cons_append, List.nil_append]
    rw [(readMembers_succ bound member.1 member.2 _ _ hread).1 _ hmore,
      readMembers_append _ _ _ (isSpace_of_mem_newLine _), hrest, Option.map_some]

/-- A value is read back if it is read with at least one unit of the bound, because its text is not
empty. -/
theorem isReadBack_of_succ (value : Json) (h : value.IsUnderstood)
    (hread : ∀ level bound rest, EndsNumber rest →
      2 * ((prettyAt level value).toList ++ rest).length ≤ bound + 1 →
        readValue (bound + 1) ((prettyAt level value).toList ++ rest) = some (value, rest)) :
    value.IsReadBack := by
  intro level bound rest hrest hbound
  cases bound with
  | zero =>
    obtain ⟨c, text, htext, -⟩ := exists_prettyAt_eq_cons value h level
    rw [htext, List.cons_append, List.length_cons] at hbound
    omega
  | succ bound => exact hread level bound rest hrest hbound

/-- Every value without a part that is only kept is read back. -/
theorem isReadBack_of_isUnderstood (value : Json) (h : value.IsUnderstood) : value.IsReadBack := by
  induction h with
  | null =>
    refine isReadBack_of_succ _ .null fun level bound rest _ _ => ?_
    rw [prettyAt]
    rfl
  | bool value =>
    refine isReadBack_of_succ _ (.bool value) fun level bound rest _ _ => ?_
    rw [prettyAt]
    cases value <;> rfl
  | integer n =>
    refine isReadBack_of_succ _ (.integer n) fun level bound rest hrest _ => ?_
    rw [prettyAt]
    exact readValue_repr bound n rest hrest
  | string value =>
    refine isReadBack_of_succ _ (.string value) fun level bound rest _ _ => ?_
    obtain ⟨inside, htext, hread⟩ := readString_stringText value rest
    simp only [prettyAt, htext, List.cons_append, readValue, skipSpace_cons '"' _ (by decide), hread]
  | array items hitems ih =>
    refine isReadBack_of_succ _ (.array items hitems) fun level bound rest _ hbound => ?_
    cases items with
    | nil =>
      have htext : (prettyAt level (.array [])).toList = ['[', ']'] := by
        rw [prettyAt, prettyItems, block]
        decide
      rw [htext]
      rfl
    | cons item items =>
      obtain ⟨c, text, htext, hspace, hclosing⟩ :=
        exists_prettyAt_eq_cons item (hitems item List.mem_cons_self) (level + 1)
      rw [prettyAt, prettyItems, toList_block "[" "]" '[' ']' rfl rfl, List.cons_append,
        List.append_assoc, List.append_assoc] at hbound ⊢
      have hread := readItems_lines item items ih level bound rest (by
        simp only [List.length_append, List.length_cons] at hbound ⊢
        omega)
      rw [htext, List.cons_append] at hread ⊢
      rw [readValue_items bound _ (isSpace_of_mem_newLine _) c _ hspace hclosing, hread,
        Option.map_some]
  | object members hmembers ih =>
    refine isReadBack_of_succ _ (.object members hmembers) fun level bound rest _ hbound => ?_
    cases members with
    | nil =>
      have htext : (prettyAt level (.object [])).toList = ['\x7b', '\x7d'] := by
        rw [prettyAt, prettyMembers, block]
        decide
      rw [htext]
      rfl
    | cons member members =>
      have hcolon : ": ".toList = [':', ' '] := rfl
      obtain ⟨inside, hkey, -⟩ := readString_stringText member.1 []
      rw [prettyAt, prettyMembers, toList_block "\x7b" "\x7d" '\x7b' '\x7d' rfl rfl] at hbound ⊢
      simp only [String.toList_append, hcolon, List.cons_append, List.nil_append,
        List.append_assoc] at hbound ⊢
      have hread := readMembers_lines member members ih level bound rest (by
        simp only [List.length_append, List.length_cons] at hbound ⊢
        omega)
      rw [hkey, List.cons_append] at hread ⊢
      rw [readValue_members bound _ (isSpace_of_mem_newLine _), hread, Option.map_some]

/-- A whole text over several lines denotes the value that it was written for, also with white space
behind it. -/
theorem parse_pretty (value : Json) (h : value.IsUnderstood) (blanks : String)
    (hblanks : ∀ c ∈ blanks.toList, isSpace c = true) :
    parse (value.pretty ++ blanks) = some value := by
  have hends : EndsNumber blanks.toList := by
    intro c hc
    have hspace := hblanks c (List.mem_of_mem_head? hc)
    simp only [isSpace, Bool.or_eq_true, beq_iff_eq, or_assoc] at hspace
    rcases hspace with rfl | rfl | rfl | rfl <;> decide
  have hskip : skipSpace blanks.toList = [] := by
    have hnil := skipSpace_append blanks.toList [] hblanks
    rwa [List.append_nil] at hnil
  have hread := isReadBack_of_isUnderstood value h 0
    (2 * ((prettyAt 0 value).toList ++ blanks.toList).length + 2) blanks.toList hends (by omega)
  simp only [parse, pretty, String.toList_append, hread, hskip, List.isEmpty_nil, ↓reduceIte]

end UnitSystems.Json
