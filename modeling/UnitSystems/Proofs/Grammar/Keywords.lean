import Mathlib.Data.List.Nodup
import UnitSystems.Proofs.Grammar.Words

/-!
# The words that begin declarations

Every system and every directive begins with a word of its own, and no such word begins another one.
So the word that stands at a place tells what can be read there: at most one of the directives, none
of them where a system begins, and no name.
-/

namespace UnitSystems.Grammar

/-- Looking ahead for a character of a class succeeds where none stands, and reads nothing. -/
theorem read_notAhead_one_iff (isMember : Char → Bool) (text : List Char)
    (pieces : List (Piece Part)) (rest : List Char) :
    (Pattern.notAhead (.one isMember) : Pattern Part).read text = some (pieces, rest) ↔
      (∀ c ∈ text.head?, isMember c = false) ∧ [] = pieces ∧ text = rest := by
  cases text with
  | nil => simp [Pattern.read]
  | cons c text => cases hc : isMember c <;> simp [Pattern.read, hc]

/-- A whole word is read where its text stands and no character of an identifier follows. -/
theorem read_wholeWord_iff (p : Pattern Part) (text : List Char) (pieces : List (Piece Part))
    (rest : List Char) : (Form.wholeWord p).read text = some (pieces, rest) ↔
      p.read text = some (pieces, rest) ∧ ∀ c ∈ rest.head?, isNameChar c = false := by
  rw [Form.wholeWord, Pattern.read_joined_eq, Option.bind_eq_some_iff]
  simp only [Option.map_eq_some_iff, Prod.exists, Prod.mk.injEq, read_notAhead_one_iff]
  constructor
  · rintro ⟨first, middle, hfirst, second, last, ⟨hhead, rfl, rfl⟩, rfl, rfl⟩
    rw [List.append_nil]
    exact ⟨hfirst, hhead⟩
  · rintro ⟨hread, hhead⟩
    exact ⟨pieces, rest, hread, [], rest, ⟨hhead, rfl, rfl⟩, List.append_nil _, rfl⟩

/-- No word of definition files begins another one. -/
theorem eq_of_isPrefix : ∀ word ∈ keywords, ∀ other ∈ keywords, word.toList <+: other.toList →
    word = other := by
  decide

/-- No gap, no line break and no quote begins a word of definition files. -/
theorem keywords_start (word : String) (hword : word ∈ keywords) :
    ∃ c more, word.toList = c :: more ∧ isBlank c = false ∧ c ≠ '#' ∧ isLineBreak c = false ∧
      c ≠ '"' := by
  have hstart : ∀ word ∈ keywords, word.toList.head?.any (fun c =>
      !isBlank c && c != '#' && !isLineBreak c && c != '"') = true := by
    decide
  obtain ⟨c, hhead, hc⟩ := (Option.any_eq_true _ _).mp (hstart word hword)
  obtain ⟨more, hmore⟩ := List.head?_eq_some_iff.mp hhead
  simp only [Bool.and_eq_true, Bool.not_eq_true', bne_iff_ne, and_assoc] at hc
  exact ⟨c, more, hmore, hc⟩

/-- At most one word of definition files stands at a place. -/
theorem eq_of_read_text (word other : String) (hword : word ∈ keywords) (hother : other ∈ keywords)
    (text : List Char) (h : ((Form.text word).read text).isSome = true)
    (h' : ((Form.text other).read text).isSome = true) : word = other := by
  obtain ⟨⟨_, first⟩, hfirst⟩ := Option.isSome_iff_exists.mp h
  obtain ⟨⟨_, second⟩, hsecond⟩ := Option.isSome_iff_exists.mp h'
  have hbegins : word.toList <+: text := ⟨first, (Pattern.of_read_word hfirst).1⟩
  have hbegins' : other.toList <+: text := ⟨second, (Pattern.of_read_word hsecond).1⟩
  rcases List.prefix_or_prefix_of_prefix hbegins hbegins' with hprefix | hprefix
  · exact eq_of_isPrefix word hword other hother hprefix
  · exact (eq_of_isPrefix other hother word hword hprefix).symm

/-- A choice between the words of definition files takes the one that stands there. -/
theorem read_firstOf_keywords (word : String) (hword : word ∈ keywords) (text : List Char)
    (reading : Reading Part) (h : (Form.text word).read text = some reading) :
    (Form.firstOf (Form.text "system") (directiveWords.map Form.text)).read text =
      some reading := by
  refine read_firstOf (Form.text word) text reading h _ _ ?_ ?_
  · exact List.mem_map_of_mem (f := Form.text) hword
  · intro r hr other hother
    change r ∈ keywords.map Form.text at hr
    obtain ⟨found, hfound, rfl⟩ := List.mem_map.mp hr
    obtain rfl := eq_of_read_text found word hfound hword text (Option.isSome_of_eq_some hother)
      (Option.isSome_of_eq_some h)
    exact Option.some.inj (hother.symm.trans h)

/-- Whether a word stands at a place. -/
def Stands (word : String) (text : List Char) : Prop :=
  ((Form.wholeWord (Form.text word)).read text).isSome = true

/-- The word of a declaration is read where it stands. -/
theorem isSome_read_declarationWord_iff (name : Part) (word : String) (text : List Char) :
    ((Form.declarationWord name word).read text).isSome = true ↔ Stands word text := by
  rw [Form.declarationWord, Pattern.read, Option.isSome_map, Stands]

/-- At most one word of definition files stands at a place as a whole. -/
theorem Stands.eq {word other : String} {text : List Char} (h : Stands word text)
    (h' : Stands other text) (hword : word ∈ keywords) (hother : other ∈ keywords) :
    word = other := by
  obtain ⟨⟨_, _⟩, hfirst⟩ := Option.isSome_iff_exists.mp h
  obtain ⟨⟨_, _⟩, hsecond⟩ := Option.isSome_iff_exists.mp h'
  exact eq_of_read_text word other hword hother text
    (Option.isSome_of_eq_some ((read_wholeWord_iff _ _ _ _).mp hfirst).1)
    (Option.isSome_of_eq_some ((read_wholeWord_iff _ _ _ _).mp hsecond).1)

/-- A keyword is read where a word of definition files stands. -/
theorem Stands.isSome_read_keyword {word : String} {text : List Char} (h : Stands word text)
    (hword : word ∈ keywords) : (Form.keyword.read text).isSome = true := by
  obtain ⟨⟨pieces, rest⟩, hread⟩ := Option.isSome_iff_exists.mp h
  obtain ⟨htext, hhead⟩ := (read_wholeWord_iff _ _ _ _).mp hread
  have hchoice := read_firstOf_keywords word hword text _ htext
  have hwhole := (read_wholeWord_iff _ _ _ _).mpr ⟨hchoice, hhead⟩
  simp only [Form.keyword, Pattern.read, hwhole, Option.isSome_map, Option.isSome_some]

/-- A declaration begins with its word. -/
theorem stands_of_read_declaration {part wordPart : Part} {word : String} {p : Pattern Part}
    {text : List Char} {reading : Reading Part}
    (h : (Pattern.branch part (.spaced (Form.declarationWord wordPart word) p)).read text =
      some reading) : Stands word text := by
  obtain ⟨inner, hinner, -⟩ := Pattern.exists_of_read_branch h
  obtain ⟨first, middle, -, hfirst, -, -⟩ := Pattern.exists_of_read_spaced hinner
  obtain ⟨_, hword, -⟩ := Pattern.exists_of_read_leaf hfirst
  exact Option.isSome_of_eq_some hword

/-- A system begins with its word. -/
theorem stands_of_read_system {text : List Char} {reading : Reading Part}
    (h : Form.system.read text = some reading) : Stands "system" text := by
  obtain ⟨inner, hinner, -⟩ := Pattern.exists_of_read_branch h
  obtain ⟨_, _, _, hname, -, -⟩ := Pattern.exists_of_read_spaced hinner
  exact stands_of_read_declaration hname

/-- The patterns of the directives, each with its word. -/
def directiveForms : List (Pattern Part × String) :=
  [(Form.output, "output"), (Form.scalar, "scalar"), (Form.unitless, "unitless"),
    (Form.root, "root"), (Form.units, "units"), (Form.symbols, "symbols"),
    (Form.constants, "constants"), (Form.extra, "extra")]

/-- The words of the directives are words of definition files. -/
theorem mem_keywords_of_form : ∀ form ∈ directiveForms, form.2 ∈ keywords := by
  decide

/-- The patterns of the directives are known by their words. -/
theorem form_eq_of_word {form other : Pattern Part × String} (hform : form ∈ directiveForms)
    (hother : other ∈ directiveForms) (hword : form.2 = other.2) : form = other := by
  have hdistinct : (directiveForms.map (·.2)).Nodup := by decide
  exact List.inj_on_of_nodup_map hdistinct hform hother hword

/-- A directive begins with its word. -/
theorem stands_of_read_form (form : Pattern Part × String) (hform : form ∈ directiveForms)
    (text : List Char) (reading : Reading Part) (h : form.1.read text = some reading) :
    Stands form.2 text := by
  simp only [directiveForms, List.mem_cons, List.not_mem_nil, or_false] at hform
  rcases hform with rfl | rfl | rfl | rfl | rfl | rfl | rfl | rfl <;>
    exact stands_of_read_declaration h

/-- A directive is read by the pattern of its word, since no other word stands at its place. -/
theorem read_directive_iff (text : List Char) (reading : Reading Part) :
    Form.directive.read text = some reading ↔
      ∃ form ∈ directiveForms, form.1.read text = some reading := by
  constructor
  · intro h
    obtain ⟨p, hp, hread⟩ := exists_of_read_firstOf _ _ _ _ h
    change p ∈ directiveForms.map (·.1) at hp
    obtain ⟨form, hform, rfl⟩ := List.mem_map.mp hp
    exact ⟨form, hform, hread⟩
  · rintro ⟨form, hform, hread⟩
    refine read_firstOf form.1 text reading hread _ _ ?_ ?_
    · exact List.mem_map_of_mem (f := (·.1)) hform
    · intro r hr other hother
      change r ∈ directiveForms.map (·.1) at hr
      obtain ⟨found, hfound, rfl⟩ := List.mem_map.mp hr
      have hword := (stands_of_read_form found hfound text other hother).eq
        (stands_of_read_form form hform text reading hread) (mem_keywords_of_form found hfound)
        (mem_keywords_of_form form hform)
      obtain rfl := form_eq_of_word hfound hform hword
      exact Option.some.inj (hother.symm.trans hread)

/-- No directive can be read where a system begins. -/
theorem read_directive_of_stands_system (text : List Char) (h : Stands "system" text) :
    Form.directive.read text = none := by
  have hne : ∀ form ∈ directiveForms, form.2 ≠ "system" := by decide
  by_contra hread
  obtain ⟨reading, hreading⟩ := Option.ne_none_iff_exists'.mp hread
  obtain ⟨form, hform, hform'⟩ := (read_directive_iff text reading).mp hreading
  exact hne form hform ((stands_of_read_form form hform text reading hform').eq h
    (mem_keywords_of_form form hform) (by decide))

/-- Where a directive can be read, a keyword can. -/
theorem isSome_read_keyword_of_directive (text : List Char) (reading : Reading Part)
    (h : Form.directive.read text = some reading) : (Form.keyword.read text).isSome = true := by
  obtain ⟨form, hform, hread⟩ := (read_directive_iff text reading).mp h
  exact (stands_of_read_form form hform text reading hread).isSome_read_keyword
    (mem_keywords_of_form form hform)

/-- No identifier can be read where a keyword stands. -/
theorem read_identifier_of_keyword (text : List Char)
    (h : (Form.keyword.read text).isSome = true) : Form.identifier.read text = none := by
  simp only [Form.identifier, Pattern.read, h, ↓reduceIte, Option.map_none]

/-- No symbol can be read where a keyword stands. -/
theorem read_symbol_of_keyword (text : List Char)
    (h : (Form.keyword.read text).isSome = true) : Form.symbol.read text = none := by
  have hbare : Form.bareSymbol.read text = none := by
    simp only [Form.bareSymbol, Pattern.read, h, ↓reduceIte, Option.map_none]
  have hstring : Form.string.read text = none := by
    obtain ⟨⟨_, _⟩, hread⟩ := Option.isSome_iff_exists.mp h
    obtain ⟨_, hwhole, -⟩ := Pattern.exists_of_read_leaf hread
    obtain ⟨taken, htaken, rfl⟩ :=
      mem_of_read_firstOf _ _ _ _ _ ((read_wholeWord_iff _ _ _ _).mp hwhole).1
    obtain ⟨c, more, heq, -, -, -, hquote⟩ := keywords_start taken htaken
    rw [heq]
    simp [Form.string, Form.text, Pattern.read, List.isPrefixOf?, hquote.symm]
  simp only [Form.symbol, Pattern.read, hstring, hbare, Option.map_none]

end UnitSystems.Grammar
