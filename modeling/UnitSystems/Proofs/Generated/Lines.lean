import UnitSystems.Proofs.Generated.Exponents
import UnitSystems.Proofs.Validation.Names
import UnitSystems.Text.Split

/-!
# Lines of a generated file

Every line of a generated text ends in a line feed. A text is read line by line again, and it has
the lines that it was written as, unless a line feed stands inside one of them. None stands in a
name, in a path or in a type.
-/

namespace UnitSystems.Generated

/-- The lines of a text. What follows the last line feed is a line unless it is empty. -/
def linesOf (text : String) : List String :=
  let pieces := Text.pieces '\n' text
  if pieces.getLast? = some "" then pieces.dropLast else pieces

/-- What was written as a line is as many lines as line feeds break it into. -/
theorem linesOf_unlines (lines : List String) :
    linesOf (unlines lines) = lines.flatMap (Text.pieces '\n') := by
  have hpieces : Text.pieces '\n' (unlines lines) = lines.flatMap (Text.pieces '\n') ++ [""] := by
    induction lines with
    | nil => rfl
    | cons line lines ih =>
      have htext : unlines (line :: lines) = line ++ String.singleton '\n' ++ unlines lines := by
        apply String.toList_injective
        simp [toList_unlines]
      rw [htext, Text.pieces_append, List.flatMap_cons, List.append_assoc, ← ih]
  rw [linesOf, hpieces]
  simp

/-- Items are rendered part by part. -/
theorem render_append (first second : List Item) :
    render (first ++ second) = render first ++ render second := by
  rw [render, unlines, List.flatMap_append, List.map_append, String.join_append]
  rfl

/-- The lines that an item is read as: what it was written as, broken by the line feeds in it. -/
def Item.readLines (item : Item) : List String :=
  item.lines.flatMap (Text.pieces '\n')

/-- The lines of items are those of one item after the other. -/
theorem linesOf_render (items : List Item) :
    linesOf (render items) = items.flatMap Item.readLines := by
  rw [render, linesOf_unlines, List.flatMap_assoc]
  rfl

/-- Texts without a line feed. -/
def IsUnbroken (text : String) : Prop :=
  '\n' ∉ text.toList

instance (text : String) : Decidable (IsUnbroken text) :=
  inferInstanceAs (Decidable (¬_))

/-- A text without a line feed is one line. -/
theorem IsUnbroken.pieces {text : String} (h : IsUnbroken text) :
    Text.pieces '\n' text = [text] :=
  Text.pieces_of_notMem '\n' text h

/-- Lines without line feeds inside are read as they were written. -/
theorem linesOf_unlines_of_isUnbroken (lines : List String) (h : ∀ line ∈ lines, IsUnbroken line) :
    linesOf (unlines lines) = lines := by
  rw [linesOf_unlines, List.flatMap_congr fun line hline => (h line hline).pieces,
    List.flatMap_singleton']

/-- Two texts without a line feed have none when they stand next to each other. -/
theorem isUnbroken_append_iff (first second : String) :
    IsUnbroken (first ++ second) ↔ IsUnbroken first ∧ IsUnbroken second := by
  rw [IsUnbroken, String.toList_append, List.mem_append, not_or]
  rfl

/-- No line feed stands in a name. -/
theorem isUnbroken_of_isWordText (text : String) (h : IsWordText text) : IsUnbroken text :=
  h.notMem '\n' (by decide)

/-- No line feed stands in the path of a type. -/
theorem isUnbroken_of_isTypePath (path : String) (h : Names.isTypePath path = true) :
    IsUnbroken path :=
  Names.notMem_of_isTypePath path h '\n' (by decide) (by decide)

/-- A character stands in no text of several that stands neither in one of them nor in what is
between them. -/
theorem notMem_intercalate (c : Char) (separator : String) (hseparator : c ∉ separator.toList)
    (texts : List String) (h : ∀ text ∈ texts, c ∉ text.toList) :
    c ∉ (separator.intercalate texts).toList := by
  induction texts with
  | nil => exact List.not_mem_nil
  | cons text texts ih =>
    obtain ⟨htext, htexts⟩ := List.forall_mem_cons.mp h
    cases texts with
    | nil => rwa [String.intercalate_singleton]
    | cons next texts =>
      rw [String.intercalate_cons_cons]
      simp only [String.toList_append, List.mem_append, not_or]
      exact ⟨⟨htext, hseparator⟩, ih htexts⟩

/-- No line feed stands between the items of a list. -/
theorem isUnbroken_listed (texts : List String) (h : ∀ text ∈ texts, IsUnbroken text) :
    IsUnbroken (Text.listed texts) :=
  notMem_intercalate '\n' ", " (by decide) texts h

/-- No line feed stands in the spelling of an integer. -/
theorem isUnbroken_peano (value : Int) : IsUnbroken (peano value) := by
  have hwrapper : IsUnbroken (wrapperOf value) := by
    unfold wrapperOf
    split <;> decide
  rw [peano_eq_nested]
  induction value.natAbs with
  | zero =>
    rw [nested]
    decide
  | succ count ih =>
    simp only [nested, isUnbroken_append_iff]
    exact ⟨⟨⟨hwrapper, by decide⟩, ih⟩, by decide⟩

end UnitSystems.Generated
