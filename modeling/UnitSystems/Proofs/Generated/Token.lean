import UnitSystems.Generated.Sections

/-!
# Tokens of a generated file

Generated text is read as the tokens of its language: words, which are names, keywords and
numbers, literals between double quotes, and single marks. White space only separates words. A
scanner goes through the text once; a text that ends between tokens is scanned independently of
what follows, and so is a word before anything that does not go on with it.
-/

namespace UnitSystems.Generated

/-- Tokens of the generated language. A literal is kept as it stands between its quotes. -/
inductive Token
  | word (text : String)
  | literal (raw : List Char)
  | mark (c : Char)
  deriving DecidableEq, Repr

/-- Where the scanner stands: between tokens, in a word, in a literal, or after a backslash in a
literal. -/
inductive Scan
  | between
  | word (text : List Char)
  | literal (raw : List Char)
  | escape (raw : List Char)
  deriving DecidableEq, Repr

namespace Scan

/-- A character between tokens: the token it completes, if any, and where the scanner goes. -/
def start (c : Char) : List Token × Scan :=
  if Names.isRest c then ([], word [c])
  else if c = '"' then ([], literal [])
  else if c = ' ' ∨ c = '\t' ∨ c = '\n' ∨ c = '\r' then ([], between)
  else ([.mark c], between)

/-- One character: the tokens it completes and where the scanner goes. -/
def step : Scan → Char → List Token × Scan
  | between, c => start c
  | word text, c =>
    if Names.isRest c then ([], word (text ++ [c]))
    else (.word (String.ofList text) :: (start c).1, (start c).2)
  | literal raw, c =>
    if c = '"' then ([.literal raw], between)
    else if c = '\\' then ([], escape raw)
    else ([], literal (raw ++ [c]))
  | escape raw, c => ([], literal (raw ++ ['\\', c]))

/-- The tokens of a text from where the scanner stands, and where it then stands. -/
def run : Scan → List Char → List Token × Scan
  | scan, [] => ([], scan)
  | scan, c :: rest =>
    let next := scan.step c
    let more := next.2.run rest
    (next.1 ++ more.1, more.2)

/-- The token that the end of the text completes. A literal without its end is a mere quote. -/
def finish : Scan → List Token
  | between => []
  | word text => [.word (String.ofList text)]
  | literal _ => [.mark '"']
  | escape _ => [.mark '"']

/-- A text is scanned part by part. -/
theorem run_append (scan : Scan) (first second : List Char) :
    scan.run (first ++ second) =
      ((scan.run first).1 ++ ((scan.run first).2.run second).1,
        ((scan.run first).2.run second).2) := by
  induction first generalizing scan with
  | nil => rfl
  | cons c first ih => simp only [List.cons_append, run, ih, List.append_assoc]

end Scan

/-- The tokens of a text. -/
def tokens (text : List Char) : List Token :=
  let scanned := Scan.between.run text
  scanned.1 ++ scanned.2.finish

/-- A part of a text that ends between tokens is scanned on its own. -/
theorem tokens_append (part rest : List Char) (found : List Token)
    (h : Scan.between.run part = (found, .between) := by decide) :
    tokens (part ++ rest) = found ++ tokens rest := by
  simp only [tokens, Scan.run_append, h, List.append_assoc]

/-- Texts that do not go on with a word before them. -/
def Separated (text : List Char) : Prop :=
  ∀ c ∈ text.head?, Names.isRest c = false

/-- A text that begins with another character than those of words does not go on with one. -/
theorem separated_cons (c : Char) (text : List Char) (h : Names.isRest c = false) :
    Separated (c :: text) := by
  intro first hfirst
  obtain rfl : c = first := by simpa using hfirst
  exact h

/-- A text that begins with such a part does not go on with a word. -/
theorem separated_append (part rest : List Char)
    (h : part.head?.any (fun c => !Names.isRest c) = true := by decide) :
    Separated (part ++ rest) := by
  cases part with
  | nil => contradiction
  | cons c part => exact separated_cons c _ (by simpa using h)

/-- A part of a text that ends in a word is scanned on its own where the word does not go on. -/
theorem tokens_append_of_word (part rest : List Char) (found : List Token) (text : String)
    (hrest : Separated rest) (h : Scan.between.run part = (found, .word text.toList) := by decide) :
    tokens (part ++ rest) = found ++ .word text :: tokens rest := by
  simp only [tokens, Scan.run_append, h]
  cases rest with
  | nil => simp [Scan.run, Scan.finish]
  | cons c rest =>
    have hc : Names.isRest c = false := hrest c rfl
    simp [Scan.run, Scan.step, hc]

/-- Texts that are one word. -/
def IsWordText (text : String) : Prop :=
  text ≠ "" ∧ ∀ c ∈ text.toList, Names.isRest c = true

instance (text : String) : Decidable (IsWordText text) :=
  decidable_of_iff (text ≠ "" ∧ text.toList.all Names.isRest = true)
    (by rw [IsWordText, List.all_eq_true])

/-- Names of the generated language are words. -/
theorem isWordText_of_isIdentifier (name : String) (h : Names.isIdentifier name = true) :
    IsWordText name := by
  simp only [Names.isIdentifier, Bool.and_eq_true] at h
  have hword := h.1.2
  cases heq : name.toList with
  | nil => simp [heq, Names.isWord] at hword
  | cons first rest =>
    simp only [heq, Names.isWord, Bool.and_eq_true, List.all_eq_true] at hword
    refine ⟨fun hempty => by simp [hempty] at heq, ?_⟩
    rw [heq, List.forall_mem_cons]
    exact ⟨by simp [Names.isRest, hword.1], hword.2⟩

/-- Two words next to each other are one. -/
theorem IsWordText.append (name suffix : String) (h : IsWordText name)
    (hsuffix : IsWordText suffix) : IsWordText (name ++ suffix) := by
  refine ⟨fun hempty => h.1 ?_, ?_⟩
  · exact (String.append_eq_empty_iff.mp hempty).1
  · rw [String.toList_append]
    exact List.forall_mem_append.mpr ⟨h.2, hsuffix.2⟩

/-- A character that no word goes on with stands in none. -/
theorem IsWordText.notMem {text : String} (h : IsWordText text) (c : Char)
    (hc : Names.isRest c = false) : c ∉ text.toList := by
  intro hmem
  rw [h.2 c hmem] at hc
  contradiction

/-- Characters of words are collected. -/
theorem run_word (text more : List Char) (h : ∀ c ∈ more, Names.isRest c = true) :
    (Scan.word text).run more = ([], .word (text ++ more)) := by
  induction more generalizing text with
  | nil => rw [List.append_nil]; rfl
  | cons c more ih =>
    rw [List.forall_mem_cons] at h
    simp only [Scan.run, Scan.step, h.1, ↓reduceIte, ih _ h.2, List.nil_append, List.append_assoc,
      List.cons_append]

/-- A word is scanned on its own where it does not go on. -/
theorem tokens_word (text : String) (htext : IsWordText text) (rest : List Char)
    (hrest : Separated rest) : tokens (text.toList ++ rest) = .word text :: tokens rest := by
  obtain ⟨hne, hchars⟩ := htext
  obtain ⟨c, more, heq⟩ := List.exists_cons_of_ne_nil (mt String.toList_eq_nil_iff.mp hne)
  rw [heq, List.forall_mem_cons] at hchars
  have hword : Scan.between.run text.toList = ([], .word text.toList) := by
    rw [heq]
    simp only [Scan.run, Scan.step, Scan.start, hchars.1, ↓reduceIte, run_word [c] more hchars.2,
      List.nil_append, List.cons_append]
  exact tokens_append_of_word text.toList rest [] text hrest hword

/-- A word is scanned on its own before a part that does not go on with it. -/
theorem tokens_word_append (text : String) (htext : IsWordText text) (part rest : List Char)
    (found : List Token) (hpart : part.head?.any (fun c => !Names.isRest c) = true := by decide)
    (h : Scan.between.run part = (found, .between) := by decide) :
    tokens (text.toList ++ (part ++ rest)) = .word text :: (found ++ tokens rest) := by
  rw [tokens_word text htext _ (separated_append part rest hpart), tokens_append part rest found h]

end UnitSystems.Generated
