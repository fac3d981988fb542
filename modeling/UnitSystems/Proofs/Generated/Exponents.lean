import UnitSystems.Proofs.Generated.Reader

/-!
# Spelled integers

An integer exponent is spelled as a type: as many wrappers around zero as the integer is away from
zero. The wrappers stand one inside the other, so every bracket is closed again, and counting them
gives the integer back. A 64-bit integer has a spelling exactly when a buffer has room for it, and
no two of them share one.
-/

namespace UnitSystems.Generated

/-- So many wrappers around zero, one inside the other. -/
def nested (wrapper : String) : Nat → String
  | 0 => "Zero"
  | count + 1 => wrapper ++ "<" ++ nested wrapper count ++ ">"

/-- An integer is spelled by wrappers, as many as it is away from zero. -/
theorem peano_eq_nested (value : Int) : peano value = nested (wrapperOf value) value.natAbs := by
  have hnested (wrapper : String) (count : Nat) :
      String.join (List.replicate count (wrapper ++ "<")) ++ "Zero" ++
        String.join (List.replicate count ">") = nested wrapper count := by
    induction count with
    | zero => rfl
    | succ count ih =>
      rw [nested, ← ih, List.replicate_succ, List.replicate_succ', String.join_cons,
        String.join_append]
      simp only [String.append_assoc]
      rfl
  rw [← hnested, peano]

/-- How many angle brackets are open after a text, when so many are open before it. No bracket is
closed that is not open. -/
def openAfter : Nat → List Char → Option Nat
  | depth, [] => some depth
  | depth, c :: rest =>
    if c = '<' then openAfter (depth + 1) rest
    else if c = '>' then
      match depth with
      | 0 => none
      | depth + 1 => openAfter depth rest
    else openAfter depth rest

/-- A text is gone through part by part. -/
theorem openAfter_append (depth : Nat) (first second : List Char) :
    openAfter depth (first ++ second) = (openAfter depth first).bind (openAfter · second) := by
  induction first generalizing depth with
  | nil => rfl
  | cons c first ih =>
    simp only [List.cons_append, openAfter, ih]
    split
    · rfl
    · split
      · cases depth <;> rfl
      · rfl

/-- Every bracket around wrapped zeros is closed again. -/
theorem openAfter_nested (wrapper : String)
    (hwrapper : ∀ depth, openAfter depth wrapper.toList = some depth) (count depth : Nat) :
    openAfter depth (nested wrapper count).toList = some depth := by
  induction count generalizing depth with
  | zero => simp [nested, openAfter]
  | succ count ih =>
    have hopen : openAfter depth ['<'] = some (depth + 1) := rfl
    have hclose : openAfter (depth + 1) ['>'] = some depth := rfl
    simp only [nested, String.toList_append, openAfter_append, hwrapper, ih, Option.bind_some]
    exact (congrArg (Option.bind · _) hopen).trans hclose

/-- The spelling of an integer leaves no bracket open and closes none of those around it. -/
theorem openAfter_peano (value : Int) (depth : Nat) :
    openAfter depth (peano value).toList = some depth := by
  rw [peano_eq_nested]
  refine openAfter_nested _ (fun depth => ?_) _ depth
  unfold wrapperOf
  split <;> rfl

/-- What a wrapper adds to the integer inside it. -/
def stepOf? (wrapper : String) : Option Int :=
  if wrapper = "Succ" then some 1 else if wrapper = "Pred" then some (-1) else none

/-- An integer that is spelled as a type: the wrappers are counted up to the zero inside them. -/
def readExponent : Reader Int
  | .word word :: rest =>
    if word = "Zero" then some (0, rest)
    else
      match rest with
      | .mark '<' :: inside => do
        let step ← stepOf? word
        let (value, rest) ← readExponent inside
        let rest ← expect [.mark '>'] rest
        some (value + step, rest)
      | _ => none
  | _ => none

/-- The integer that a text spells. -/
def readPeano (text : String) : Option Int :=
  match readExponent (tokens text.toList) with
  | some (value, []) => some value
  | _ => none

/-- The tokens of wrappers around zero. -/
def nestedTokens (wrapper : String) : Nat → List Token
  | 0 => [.word "Zero"]
  | count + 1 => .word wrapper :: .mark '<' :: nestedTokens wrapper count ++ [.mark '>']

/-- The tokens of an integer. -/
def exponentTokens (value : Int) : List Token :=
  nestedTokens (wrapperOf value) value.natAbs

/-- An integer has tokens. -/
theorem exponentTokens_ne_nil (value : Int) : exponentTokens value ≠ [] := by
  rw [exponentTokens]
  cases value.natAbs <;> exact List.cons_ne_nil _ _

/-- An integer is spelled with its tokens. -/
theorem tokens_peano (value : Int) (rest : List Char) (hrest : Separated rest) :
    tokens ((peano value).toList ++ rest) = exponentTokens value ++ tokens rest := by
  have hwrapper : IsWordText (wrapperOf value) := by
    unfold wrapperOf
    split <;> decide
  rw [peano_eq_nested, exponentTokens]
  induction value.natAbs generalizing rest with
  | zero => exact tokens_word "Zero" (by decide) rest hrest
  | succ count ih =>
    simp only [nested, nestedTokens, String.toList_append, List.append_assoc]
    rw [tokens_word_append _ hwrapper "<".toList _ [.mark '<'], ih _ (separated_append _ _),
      tokens_append ">".toList rest [.mark '>']]
    simp only [List.cons_append, List.nil_append]

/-- An integer is read back. -/
theorem readExponent_tokens (value : Int) (rest : List Token) :
    readExponent (exponentTokens value ++ rest) = some (value, rest) := by
  have hcount (wrapper : String) (step : Int) (hstep : stepOf? wrapper = some step)
      (hword : wrapper ≠ "Zero") (count : Nat) (rest : List Token) :
      readExponent (nestedTokens wrapper count ++ rest) = some (count * step, rest) := by
    induction count generalizing rest with
    | zero => simp [nestedTokens, readExponent.eq_def]
    | succ count ih =>
      simp only [nestedTokens, List.cons_append, List.append_assoc, List.nil_append, readExponent,
        if_neg hword, hstep, ih, expect_cons_self, expect_nil, bind, Option.bind]
      rw [Int.natCast_succ, Int.add_mul, Int.one_mul]
  rw [exponentTokens, wrapperOf]
  split
  · rw [hcount "Pred" (-1) rfl (by decide)]
    congr 2
    omega
  · rw [hcount "Succ" 1 rfl (by decide)]
    congr 2
    omega

/-- The spelling of an integer spells this integer. -/
theorem readPeano_peano (value : Int) : readPeano (peano value) = some value := by
  have htokens := tokens_peano value [] (by simp [Separated])
  rw [List.append_nil] at htokens
  rw [readPeano, htokens, readExponent_tokens]
  rfl

/-- Both wrappers have four letters. -/
theorem utf8ByteSize_wrapperOf (value : Int) : (wrapperOf value).utf8ByteSize = 4 := by
  unfold wrapperOf
  split <;> decide

/-- Every wrapper takes up six bytes with its brackets, and the zero inside them four. -/
theorem utf8ByteSize_peano (value : Int) :
    (peano value).utf8ByteSize = 6 * value.natAbs + 4 := by
  have hbrackets : "<".utf8ByteSize = 1 ∧ ">".utf8ByteSize = 1 := by decide
  rw [peano_eq_nested]
  induction value.natAbs with
  | zero => exact (by decide : "Zero".utf8ByteSize = 4)
  | succ count ih =>
    simp only [nested, String.utf8ByteSize_append, utf8ByteSize_wrapperOf, hbrackets, ih]
    omega

/-- A text that spells an integer: it is made of as many wrappers as the integer is away from zero,
it closes every bracket, and the integer can be read from it. -/
structure Spells (text : String) (value : Int) : Prop where
  wrappers : text = nested (wrapperOf value) value.natAbs
  balanced : openAfter 0 text.toList = some 0
  size : text.utf8ByteSize = 6 * value.natAbs + 4
  read : readPeano text = some value

/-- The spelling of an integer spells it. -/
theorem spells_peano (value : Int) : Spells (peano value) value where
  wrappers := peano_eq_nested value
  balanced := openAfter_peano value 0
  size := utf8ByteSize_peano value
  read := readPeano_peano value

/-- What is reserved for a spelling is as long as the spelling. -/
theorem reservedBytes_eq (value : Int64) :
    reservedBytes value = (peano value.toInt).utf8ByteSize := by
  rw [reservedBytes, utf8ByteSize_wrapperOf, utf8ByteSize_peano]
  omega

/-- A 64-bit integer has a spelling exactly when the longest buffer has room for it. -/
theorem peano?_eq_some_iff (value : Int64) (text : String) : peano? value = some text ↔
    6 * value.toInt.natAbs + 4 ≤ longestBuffer ∧ peano value.toInt = text := by
  rw [peano?, reservedBytes_eq, utf8ByteSize_peano, Option.ite_none_right_eq_some,
    Option.some_inj]

/-- A 64-bit integer has no spelling exactly when it would take up more than the longest buffer. -/
theorem peano?_eq_none_iff (value : Int64) :
    peano? value = none ↔ longestBuffer < 6 * value.toInt.natAbs + 4 := by
  rw [peano?, reservedBytes_eq, utf8ByteSize_peano, ← Nat.not_le]
  simp

/-- No two 64-bit integers share a spelling. -/
theorem peano?_injective (first second : Int64) (text : String)
    (hfirst : peano? first = some text) (hsecond : peano? second = some text) :
    first = second := by
  obtain ⟨-, hfirst⟩ := (peano?_eq_some_iff first text).mp hfirst
  obtain ⟨-, hsecond⟩ := (peano?_eq_some_iff second text).mp hsecond
  have hread := readPeano_peano first.toInt
  rw [hfirst, ← hsecond, readPeano_peano] at hread
  exact Int64.toInt_inj.mp (Option.some.inj hread).symm

/-- Every 32-bit number has a spelling. -/
theorem peano?_ofNat (root : UInt32) :
    peano? (.ofNat root.toNat) = some (Argument.exponent root.toNat).text := by
  have hroot : root.toNat < 2 ^ 32 := root.toNat_lt_size
  have hvalue : (Int64.ofNat root.toNat).toInt = root.toNat :=
    Int64.toInt_ofNat_of_lt (by omega)
  rw [peano?_eq_some_iff, hvalue, Int.natAbs_natCast, longestBuffer]
  exact ⟨by omega, rfl⟩

end UnitSystems.Generated
