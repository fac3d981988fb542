import UnitSystems.Proofs.Definition.Json

/-!
# Dimensions as JSON

The text of a dimension is a JSON list of its exponents, with a blank after each comma. The layout
on one line leaves the blanks out. Both are the same text up to the white space after the commas,
and with any such white space a list of integers is read back.
-/

namespace UnitSystems

namespace Json

/-- A number is over where a comma or a closing bracket stands. -/
theorem endsNumber_cons (c : Char) (text : List Char) (h : c = ',' ∨ c = ']') :
    EndsNumber (c :: text) := by
  intro first hfirst
  obtain rfl : c = first := Option.some.inj hfirst
  rcases h with rfl | rfl <;> decide

/-- No integer has an empty text. -/
theorem length_repr_pos (n : Int) : 0 < n.repr.toList.length := by
  obtain ⟨c, text, htext, -⟩ := exists_repr_eq_cons n
  rw [htext]
  exact Nat.succ_pos _

/-- Integers with a comma and white space between them. -/
def integerItems (blanks : String) (ns : List Int) : String :=
  ("," ++ blanks).intercalate (ns.map Int.repr)

/-- The text of several integers is the first one, a comma and the text of the others. -/
theorem toList_integerItems (blanks : String) (n next : Int) (ns : List Int) :
    (integerItems blanks (n :: next :: ns)).toList =
      n.repr.toList ++ ',' :: (blanks.toList ++ (integerItems blanks (next :: ns)).toList) := by
  have hcomma : ",".toList = [','] := rfl
  simp only [integerItems, List.map_cons, String.intercalate_cons_cons, String.toList_append,
    hcomma, List.append_assoc, List.cons_append, List.nil_append]

/-- The text of integers begins as an integer does. -/
theorem exists_integerItems_eq_cons (blanks : String) (n : Int) (ns : List Int) :
    ∃ c text, (integerItems blanks (n :: ns)).toList = c :: text ∧ StartsInteger c := by
  obtain ⟨c, text, htext, hc⟩ := exists_repr_eq_cons n
  cases ns with
  | nil =>
    have hone : integerItems blanks [n] = n.repr := String.intercalate_singleton
    exact ⟨c, text, by rw [hone, htext], hc⟩
  | cons next ns => exact ⟨c, _, by rw [toList_integerItems, htext, List.cons_append], hc⟩

/-- Integers between commas are read one by one up to the closing bracket. Each of them uses one
unit of the bound and has a text that is not empty. -/
theorem readItems_integers (blanks : String) (hblanks : ∀ c ∈ blanks.toList, isSpace c = true)
    (n : Int) (ns : List Int) (bound : Nat) (rest : List Char)
    (hbound : (integerItems blanks (n :: ns)).toList.length < bound) :
    readItems bound ((integerItems blanks (n :: ns)).toList ++ ']' :: rest) =
      some ((n :: ns).map .integer, rest) := by
  have hpos := length_repr_pos n
  induction ns generalizing n bound with
  | nil =>
    have hone : integerItems blanks [n] = n.repr := String.intercalate_singleton
    rw [hone] at hbound ⊢
    obtain ⟨bound, rfl⟩ : ∃ smaller, bound = smaller + 2 := ⟨bound - 2, by omega⟩
    rw [readItems, readValue_repr bound n _ (endsNumber_cons ']' rest (.inr rfl))]
    simp only [skipSpace_cons ']' _ (by decide), List.map_singleton]
  | cons next ns ih =>
    rw [toList_integerItems] at hbound ⊢
    rw [List.length_append, List.length_cons, List.length_append] at hbound
    obtain ⟨bound, rfl⟩ : ∃ smaller, bound = smaller + 2 := ⟨bound - 2, by omega⟩
    have hrest := ih next (bound + 1) (by omega) (length_repr_pos next)
    rw [List.append_assoc, List.cons_append, readItems,
      readValue_repr bound n _ (endsNumber_cons ',' _ (.inl rfl))]
    simp only [skipSpace_cons ',' _ (by decide), List.append_assoc,
      readItems_append _ _ _ hblanks, hrest, Option.map_some, List.map_cons]

/-- A list of integers is read back, whatever white space stands after its commas. -/
theorem parse_integers (blanks : String) (hblanks : ∀ c ∈ blanks.toList, isSpace c = true)
    (ns : List Int) :
    parse ("[" ++ integerItems blanks ns ++ "]") = some (.array (ns.map .integer)) := by
  have hopening : "[".toList = ['['] := rfl
  have hclosing : "]".toList = [']'] := rfl
  have hread : ∀ bound, (integerItems blanks ns).toList.length < bound →
      readValue (bound + 1) ('[' :: ((integerItems blanks ns).toList ++ [']'])) =
        some (.array (ns.map .integer), []) := by
    intro bound hbound
    cases ns with
    | nil => rfl
    | cons n ns =>
      obtain ⟨c, text, htext, hc⟩ := exists_integerItems_eq_cons blanks n ns
      have hitems := readItems_integers blanks hblanks n ns bound [] hbound
      rw [htext, List.cons_append] at hitems ⊢
      have hvalue := readValue_items bound [] (List.forall_mem_nil _) c (text ++ [']']) hc.ne.1
        (hc.ne.2 ']' (by decide))
      rw [List.nil_append] at hvalue
      rw [hvalue, hitems, Option.map_some]
  simp only [parse, String.toList_append, hopening, hclosing, List.cons_append, List.nil_append]
  rw [hread _ (by simp only [List.length_cons, List.length_append]; omega)]
  rfl

/-- On one line, a list of integers has nothing after its commas. -/
theorem compact_integers (ns : List Int) :
    (array (ns.map .integer)).compact = "[" ++ integerItems "" ns ++ "]" := by
  have hitems : compactItems (ns.map .integer) = ns.map Int.repr := by
    induction ns with
    | nil => rfl
    | cons n ns ih => rw [List.map_cons, compactItems, ih, compact, List.map_cons]
  rw [compact, hitems, integerItems, String.append_empty]

end Json

namespace Dimension

/-- The exponents of a dimension as integers. -/
def integers (d : Dimension) : List Int :=
  d.exponents.map Int32.toInt

/-- The list of the exponents of a dimension denotes it. -/
theorem ofJson?_integers (d : Dimension) :
    ofJson? (.array (d.integers.map .integer)) = some d := by
  have hread := Json.listOf?_map (fun item => item.asInteger?.bind exponent?)
    (fun e : Int32 => .integer e.toInt) d.exponents fun e _ => exponent?_eq_some_iff.mpr rfl
  rw [ofJson?, integers, List.map_map, Function.comp_def, hread, Option.map_some]

/-- The text of a dimension has a blank after every comma. -/
theorem text_eq (d : Dimension) : d.text = "[" ++ Json.integerItems " " d.integers ++ "]" := by
  have hcomma : "," ++ " " = ", " := by decide
  rw [text, Text.listed, Json.integerItems, integers, hcomma, List.map_map]
  rfl

/-- A dimension is read back from its text and from its JSON on one line, so dimensions with one
text are equal. -/
theorem read_text_and_compact :
    (∀ d : Dimension, (Json.parse d.text).bind ofJson? = some d ∧
      (Json.parse d.toJson.compact).bind ofJson? = some d) ∧ Function.Injective text := by
  have htext : ∀ d : Dimension, (Json.parse d.text).bind ofJson? = some d := by
    intro d
    have hblank : " ".toList.all Json.isSpace = true := by decide
    rw [text_eq, Json.parse_integers " " (List.all_eq_true.mp hblank), Option.bind_some,
      ofJson?_integers]
  have hcompact : ∀ d : Dimension, (Json.parse d.toJson.compact).bind ofJson? = some d := by
    intro d
    have hjson : d.toJson = .array (d.integers.map .integer) := by
      rw [toJson, integers, List.map_map]
      rfl
    rw [hjson, Json.compact_integers, Json.parse_integers "" (List.forall_mem_nil _),
      Option.bind_some, ofJson?_integers]
  refine ⟨fun d => ⟨htext d, hcompact d⟩, fun a b h => ?_⟩
  have hread := htext a
  rw [h, htext b] at hread
  exact (Option.some.inj hread).symm

end Dimension

end UnitSystems
