import UnitSystems.DefinitionFile.Directive
import UnitSystems.Proofs.Grammar.Reading
import UnitSystems.Proofs.Text.Trimming

/-!
# What counts of the pieces

Between named parts stand plain pieces, which no directive looks at, and the value at the end of a
line is taken without the white space around it. What is left is the content of pieces: pieces with
equal content are the same directives. Beside the content, the characters of pieces are told apart
by whether they lie in a quoted text.
-/

namespace UnitSystems

namespace Grammar

mutual

/-- What counts of a piece. -/
def Piece.content : Piece Part → List (Piece Part)
  | .plain _ => []
  | .leaf name text => [.leaf name (if name = .restOfLine then Text.trim text else text)]
  | .branch name parts => [.branch name (Piece.contentOf parts)]

/-- What counts of pieces. -/
def Piece.contentOf : List (Piece Part) → List (Piece Part)
  | [] => []
  | piece :: rest => piece.content ++ Piece.contentOf rest

end

mutual

/-- Whether each character of a piece lies in a quoted text. -/
def Piece.quoted : Piece Part → List Bool
  | .plain text => text.map fun _ => false
  | .leaf _ text => text.map fun _ => false
  | .branch .string parts => (Piece.textOf parts).map fun _ => true
  | .branch _ parts => Piece.quotedOf parts

/-- Whether each character of pieces lies in a quoted text. -/
def Piece.quotedOf : List (Piece Part) → List Bool
  | [] => []
  | piece :: rest => piece.quoted ++ Piece.quotedOf rest

end

namespace Piece

/-- The content of two runs of pieces stands one after the other. -/
theorem contentOf_append (first second : List (Piece Part)) :
    contentOf (first ++ second) = contentOf first ++ contentOf second := by
  induction first with
  | nil => rfl
  | cons piece first ih => rw [List.cons_append, contentOf, ih, contentOf, List.append_assoc]

/-- The characters of two runs of pieces stand one after the other. -/
theorem quotedOf_append (first second : List (Piece Part)) :
    quotedOf (first ++ second) = quotedOf first ++ quotedOf second := by
  induction first with
  | nil => rfl
  | cons piece first ih => rw [List.cons_append, quotedOf, ih, quotedOf, List.append_assoc]

mutual

/-- Every character of a piece is told apart. -/
theorem length_quoted : (piece : Piece Part) → piece.quoted.length = piece.text.length
  | .plain _ => List.length_map _
  | .leaf _ _ => List.length_map _
  | .branch name parts => by
    by_cases hname : name = .string
    · rw [hname]
      exact List.length_map _
    · rw [quoted]
      · exact length_quotedOf parts
      · exact hname

/-- Every character of pieces is told apart. -/
theorem length_quotedOf : (pieces : List (Piece Part)) →
    (quotedOf pieces).length = (textOf pieces).length
  | [] => rfl
  | piece :: rest => by
    rw [quotedOf, textOf, List.length_append, List.length_append, length_quoted piece,
      length_quotedOf rest]

end

end Piece

/-- The first leaf with a name is found in the content. -/
theorem leafText?_contentOf (name : Part) (pieces : List (Piece Part)) :
    leafText? name (Piece.contentOf pieces) = (leafText? name pieces).map fun text =>
      if name = .restOfLine then Text.trim text else text := by
  induction pieces with
  | nil => rfl
  | cons piece pieces ih =>
    cases piece with
    | plain => exact ih
    | branch => exact ih
    | leaf found text =>
      simp only [Piece.contentOf, Piece.content, List.singleton_append, leafText?]
      split
      · next hfound => rw [hfound, Option.map_some]
      · exact ih

/-- The leaves with a name are found in the content. -/
theorem leafTexts_contentOf (name : Part) (hname : name ≠ .restOfLine)
    (pieces : List (Piece Part)) :
    leafTexts name (Piece.contentOf pieces) = leafTexts name pieces := by
  induction pieces with
  | nil => rfl
  | cons piece pieces ih =>
    cases piece with
    | plain => exact ih
    | branch => exact ih
    | leaf found text =>
      simp only [Piece.contentOf, Piece.content, List.singleton_append, leafTexts, ih]
      split
      · next hfound => rw [hfound, if_neg hname]
      · rfl

/-- The first branch with a name is found in the content. -/
theorem branch?_contentOf (name : Part) (pieces : List (Piece Part)) :
    branch? name (Piece.contentOf pieces) = (branch? name pieces).map Piece.contentOf := by
  induction pieces with
  | nil => rfl
  | cons piece pieces ih =>
    cases piece with
    | plain => exact ih
    | leaf => exact ih
    | branch found parts =>
      simp only [Piece.contentOf, Piece.content, List.singleton_append, branch?]
      split
      · rfl
      · exact ih

/-- The branches with a name are found in the content. -/
theorem branches_contentOf (name : Part) (pieces : List (Piece Part)) :
    branches name (Piece.contentOf pieces) = (branches name pieces).map Piece.contentOf := by
  induction pieces with
  | nil => rfl
  | cons piece pieces ih =>
    cases piece with
    | plain => exact ih
    | leaf => exact ih
    | branch found parts =>
      simp only [Piece.contentOf, Piece.content, List.singleton_append, branches, ih]
      split <;> rfl

end Grammar

namespace Directive

open Grammar

/-- A quoted text is read off the content. -/
theorem quotedText_contentOf (parts : List (Piece Part)) :
    quotedText (Piece.contentOf parts) = quotedText parts := by
  rw [quotedText, quotedText, leafText?_contentOf]
  simp

/-- A leaf that is no value is read off the content. -/
theorem leafString_contentOf (name : Part) (hname : name ≠ .restOfLine)
    (parts : List (Piece Part)) :
    leafString name (Piece.contentOf parts) = leafString name parts := by
  rw [leafString, leafString, leafText?_contentOf]
  simp [hname]

/-- A symbol is read off the content. -/
theorem symbolText_contentOf (parts : List (Piece Part)) :
    symbolText (Piece.contentOf parts) = symbolText parts := by
  rw [symbolText, symbolText, branch?_contentOf]
  cases branch? .string parts with
  | none => exact leafString_contentOf .bareSymbol (by decide) parts
  | some inside => exact quotedText_contentOf inside

/-- The identifiers of a list are read off the content. -/
theorem identifiers_contentOf (parts : List (Piece Part)) :
    identifiers (Piece.contentOf parts) = identifiers parts := by
  rw [identifiers, identifiers, branch?_contentOf]
  cases branch? .identifierList parts with
  | none => rfl
  | some inside =>
    rw [Option.map_some, Option.getD_some, Option.getD_some,
      leafTexts_contentOf .identifier (by decide)]

/-- The value at the end of a line is read off the content. -/
theorem lineValue?_contentOf (parts : List (Piece Part)) :
    lineValue? (Piece.contentOf parts) = lineValue? parts := by
  rw [lineValue?, lineValue?, leafText?_contentOf, Option.map_map]
  refine Option.map_congr fun value _ => ?_
  rw [Function.comp_apply, if_pos rfl, Text.trim_trim]

/-- The list of symbols of a directive is read off the content. -/
theorem symbols_contentOf (parts : List (Piece Part)) :
    (branches .symbol ((branch? .symbolList (Piece.contentOf parts)).getD [])).map symbolText =
      (branches .symbol ((branch? .symbolList parts).getD [])).map symbolText := by
  rw [branch?_contentOf]
  cases branch? .symbolList parts with
  | none => rfl
  | some inside =>
    rw [Option.map_some, Option.getD_some, Option.getD_some, branches_contentOf, List.map_map]
    exact List.map_congr_left fun symbol _ => symbolText_contentOf symbol

/-- The directive of a branch is read off the content of its pieces. -/
theorem ofPiece?_branch (name : Part) (parts : List (Piece Part)) :
    ofPiece? (.branch name (Piece.contentOf parts)) = ofPiece? (.branch name parts) := by
  have hidentifier := leafString_contentOf .identifier (by decide) parts
  cases name with
  | output =>
    have hstring : quotedText ((branch? .string (Piece.contentOf parts)).getD []) =
        quotedText ((branch? .string parts).getD []) := by
      rw [branch?_contentOf]
      cases branch? .string parts with
      | none => rfl
      | some inside => exact quotedText_contentOf inside
    rw [ofPiece?, ofPiece?, hstring]
  | scalar =>
    rw [ofPiece?, ofPiece?, leafString_contentOf .scalarType (by decide), lineValue?_contentOf]
  | unitless => rw [ofPiece?, ofPiece?, hidentifier]
  | root => rw [ofPiece?, ofPiece?, leafString_contentOf .integer (by decide)]
  | units => rw [ofPiece?, ofPiece?, identifiers_contentOf]
  | symbols => rw [ofPiece?, ofPiece?, symbols_contentOf]
  | constants => rw [ofPiece?, ofPiece?, identifiers_contentOf]
  | extra => rw [ofPiece?, ofPiece?, hidentifier, lineValue?_contentOf]
  | _ => rfl

/-- The directives that pieces were read as are read off the content. -/
theorem ofPiece?_contentOf (pieces : List (Piece Part)) :
    (Piece.contentOf pieces).filterMap ofPiece? = pieces.filterMap ofPiece? := by
  induction pieces with
  | nil => rfl
  | cons piece pieces ih =>
    cases piece with
    | plain => exact ih
    | leaf => exact ih
    | branch name parts =>
      simp only [Piece.contentOf, Piece.content, List.singleton_append, List.filterMap_cons,
        ofPiece?_branch, ih]

end Directive

end UnitSystems
