import UnitSystems.Expression
import UnitSystems.Proofs.Grammar.Leaves
import UnitSystems.Proofs.Outcome

/-!
# Denominators of written expressions

The denominator of an exponent is written without leading zeros, so it is positive. A factor
without a written denominator has the denominator one.
-/

namespace UnitSystems

open Grammar

/-- Digits do not make a number smaller. -/
theorem le_ofDigitChars (digits : List Char) (start : Nat) :
    start ≤ Nat.ofDigitChars 10 digits start := by
  induction digits generalizing start with
  | nil => exact Nat.le_refl start
  | cons c digits ih =>
    rw [Nat.ofDigitChars_cons]
    exact Nat.le_trans (by omega) (ih _)

/-- A number that begins with another digit than zero is positive. -/
theorem integerValue_pos (c : Char) (digits : List Char) (hc : isNonzeroDigit c = true) :
    0 < Text.integerValue (c :: digits) := by
  simp only [isNonzeroDigit, Bool.and_eq_true, decide_eq_true_eq] at hc
  have hlow : '1'.toNat ≤ c.toNat := hc.1
  have hminus : c ≠ '-' := by
    rintro rfl
    exact absurd hlow (by decide)
  have hvalue : Text.integerValue (c :: digits) = (Nat.ofDigitChars 10 (c :: digits) 0 : Int) := by
    unfold Text.integerValue
    split
    · next heq => exact absurd (List.cons.inj heq).1 hminus
    · rfl
  have hle := le_ofDigitChars digits (10 * 0 + (c.toNat - '0'.toNat))
  have hone : '1'.toNat = '0'.toNat + 1 := rfl
  rw [hvalue, Nat.ofDigitChars_cons]
  omega

/-- Denominators are positive numbers. -/
def IsDenominator (name : Part) (text : List Char) : Prop :=
  name = .positive → 0 < Text.integerValue text

/-- What is read as a denominator is one. -/
theorem isDenominator_positive (text : List Char) (pieces : List (Piece Part)) (rest : List Char)
    (h : (Pattern.joined (.one isNonzeroDigit) (.run isDigit)).read text = some (pieces, rest)) :
    IsDenominator .positive (Piece.textOf pieces) := by
  intro _
  obtain ⟨first, middle, second, hfirst, hsecond, rfl⟩ := Pattern.exists_of_read_joined h
  obtain ⟨c, hc, -, rfl⟩ := Pattern.exists_of_read_one hfirst
  obtain ⟨rfl, -⟩ := Prod.mk.inj (Option.some.inj hsecond)
  exact integerValue_pos c _ hc

/-- All denominators of an expression are positive. -/
theorem demands_expression : Form.expression.Demands IsDenominator := by
  have hother (name : Part) (p : Pattern Part) (hname : name ≠ .positive) :
      (Pattern.leaf name p).Demands IsDenominator :=
    fun _ _ _ _ heq => absurd heq hname
  have hratio : (Pattern.optional (.spaced (Form.text "/") Form.positive)).Demands IsDenominator :=
    ⟨trivial, isDenominator_positive⟩
  have hinteger : Form.integer.Demands IsDenominator := hother _ _ (by decide)
  have hfactor : Form.factor.Demands IsDenominator :=
    ⟨⟨hother _ _ (by decide), hother _ _ (by decide)⟩,
      trivial, ⟨trivial, hinteger, hratio, trivial⟩, hinteger, hratio⟩
  exact ⟨trivial, hfactor, ⟨⟨trivial, trivial⟩, hfactor⟩, hother _ _ (by decide)⟩

namespace Expression

/-- A number is read without change of its value. -/
theorem toInt_of_numberAt (start : Place) (digits : List Char) (value : Int32)
    (h : numberAt start digits = .ok value) : value.toInt = Text.integerValue digits := by
  unfold numberAt at h
  split at h
  · next found hfound =>
    obtain rfl := Except.ok.inj h
    exact exponent?_eq_some_iff.mp hfound
  · contradiction

/-- Pieces whose leaves meet a demand do so at their places. -/
theorem meet_of_mem_located (demand : Part → List Char → Prop) (parts : List (Piece Part))
    (hparts : Piece.Meet demand parts) (start : Place) :
    ∀ entry ∈ located start parts, Piece.Meet demand [entry.2] := by
  induction parts generalizing start with
  | nil => simp [located]
  | cons piece parts ih =>
    obtain ⟨hpiece, hrest⟩ := (Piece.meet_cons_iff _ _).mp hparts
    rw [located, List.forall_mem_cons]
    exact ⟨hpiece, ih hrest _⟩

/-- The denominator of an exponent stays positive while its pieces are read. -/
theorem denominator_readRatio (entries : List (Place × Piece Part))
    (hentries : ∀ entry ∈ entries, Piece.Meet IsDenominator [entry.2])
    (ratio result : Int32 × Int32) (hratio : 0 < ratio.2.toInt)
    (h : readRatio ratio entries = .ok result) : 0 < result.2.toInt := by
  fun_induction readRatio ratio entries with
  | case1 ratio =>
    obtain rfl := Except.ok.inj h
    exact hratio
  | case2 ratio start digits rest numerator hnumber ih =>
    exact ih (fun e he => hentries e (List.mem_cons_of_mem _ he)) hratio h
  | case3 => contradiction
  | case4 ratio start digits rest denominator hnumber ih =>
    refine ih (fun e he => hentries e (List.mem_cons_of_mem _ he)) ?_ h
    have hpositive := (Piece.meet_leaf_iff _ _).mp (hentries _ List.mem_cons_self) rfl
    rwa [← toInt_of_numberAt start digits denominator hnumber] at hpositive
  | case5 => contradiction
  | case6 ratio entry rest _ _ ih =>
    exact ih (fun e he => hentries e (List.mem_cons_of_mem _ he)) hratio h

/-- The denominator of a factor stays positive while its pieces are read. -/
theorem denominator_readPower (entries : List (Place × Piece Part))
    (hentries : ∀ entry ∈ entries, Piece.Meet IsDenominator [entry.2]) (base : Base)
    (ratio : Int32 × Int32) (result : Base × Int32 × Int32) (hratio : 0 < ratio.2.toInt)
    (h : readPower base ratio entries = .ok result) : 0 < result.2.2.toInt := by
  fun_induction readPower base ratio entries with
  | case1 base ratio =>
    obtain rfl := Except.ok.inj h
    exact hratio
  | case2 base ratio start name rest ih =>
    exact ih (fun e he => hentries e (List.mem_cons_of_mem _ he)) hratio h
  | case3 base ratio start text rest ih =>
    exact ih (fun e he => hentries e (List.mem_cons_of_mem _ he)) hratio h
  | case4 base ratio start parts rest next hnext ih =>
    have hparts := (Piece.meet_branch_iff _ _).mp (hentries _ List.mem_cons_self)
    exact ih (fun e he => hentries e (List.mem_cons_of_mem _ he))
      (denominator_readRatio _ (meet_of_mem_located _ parts hparts start) ratio next hratio hnext) h
  | case5 => contradiction
  | case6 base ratio entry rest _ _ _ ih =>
    exact ih (fun e he => hentries e (List.mem_cons_of_mem _ he)) hratio h

/-- The denominator of a factor that was read is positive. -/
theorem denominator_readFactor (start : Place) (parts : List (Piece Part)) (factor : Factor)
    (hparts : Piece.Meet IsDenominator parts) (h : readFactor start parts = .ok factor) :
    0 < factor.denominator.toInt := by
  obtain ⟨result, hpower, rfl⟩ := (map_eq_ok_iff _ _ _).mp h
  exact denominator_readPower _ (meet_of_mem_located _ parts hparts start) .one (1, 1) result
    (by decide) hpower

/-- What holds of every factor that can be read from pieces holds of all that are. -/
theorem forall_readFactors (p : Factor → Prop) (entries : List (Place × Piece Part))
    (hentries : ∀ place inside, (place, .branch .factor inside) ∈ entries →
      ∀ factor, readFactor place inside = .ok factor → p factor)
    (sign : Sign) (expression : Expression) (h : readFactors sign entries = .ok expression) :
    ∀ term ∈ expression, p term.2 := by
  fun_induction readFactors sign entries generalizing expression with
  | case1 sign =>
    obtain rfl := Except.ok.inj h
    simp
  | case2 sign start parts rest ih =>
    exact ih (fun place inside hmem => hentries place inside (List.mem_cons_of_mem _ hmem))
      expression h
  | case3 sign start parts rest factor hfactor ih =>
    obtain ⟨others, hrest, rfl⟩ := (map_eq_ok_iff _ _ _).mp h
    rw [List.forall_mem_cons]
    exact ⟨hentries start parts List.mem_cons_self factor hfactor,
      ih (fun place inside hmem => hentries place inside (List.mem_cons_of_mem _ hmem))
        others hrest⟩
  | case4 => contradiction
  | case5 sign entry rest _ _ ih =>
    exact ih (fun place inside hmem => hentries place inside (List.mem_cons_of_mem _ hmem))
      expression h

/-- What is inside a branch that was read meets what the leaves of its pattern demand. -/
theorem meet_of_readBranch (demand : Part → List Char → Prop) (name : Part) (p : Pattern Part)
    (hp : (Pattern.branch name p).Demands demand) (text : List Char) (source : String)
    (parts : List (Piece Part)) (h : readBranch (.branch name p) text source = .ok parts) :
    Piece.Meet demand parts := by
  obtain ⟨rest, hread⟩ := (readBranch_eq_ok_iff _ _ _ _ _).mp h
  exact p.meets hp _ _ _ hread

/-- An expression is denoted by the pieces that its text is read as. -/
theorem exists_of_parse {text : String} {expression : Expression}
    (h : parse text = .ok expression) :
    ∃ parts, readBranch Form.expression text.toList sourceName = .ok parts ∧
      readFactors .times (located {} parts) = .ok expression := by
  unfold parse at h
  cases hparts : readBranch Form.expression text.toList sourceName with
  | error complaint =>
    rw [hparts] at h
    contradiction
  | ok parts =>
    cases hfactors : readFactors .times (located {} parts) with
    | error complaint => simp [hparts, hfactors, bind, Except.bind, Except.mapError] at h
    | ok found =>
      simp only [hparts, bind, Except.bind, hfactors, Except.mapError, Except.ok.injEq] at h
      obtain rfl := h
      exact ⟨parts, rfl, hfactors⟩

/-- The denominators of an expression that was parsed are positive. -/
theorem denominator_parse (text : String) (expression : Expression)
    (h : parse text = .ok expression) : ∀ term ∈ expression, 0 < term.2.denominator.toInt := by
  obtain ⟨parts, hparts, hfactors⟩ := exists_of_parse h
  have hmeet := meet_of_readBranch IsDenominator _ _ demands_expression _ _ parts hparts
  refine forall_readFactors (fun factor => 0 < factor.denominator.toInt) _
    (fun place inside hmem factor hfactor => ?_) .times _ hfactors
  have hinside := meet_of_mem_located _ parts hmeet {} _ hmem
  exact denominator_readFactor place inside factor ((Piece.meet_branch_iff _ _).mp hinside) hfactor

end Expression

end UnitSystems
