import UnitSystems.Proofs.Files.Spelling

/-!
# Directories above a path

The directory above a path has the components of the path but the last one, and so everything above
a path has the first few of its components.
-/

namespace UnitSystems.Path

/-- Names without slashes are the pieces of the path that is joined from them. -/
theorem pieces_intercalate (name : String) (names : List String)
    (h : ∀ piece ∈ name :: names, '/' ∉ piece.toList) :
    Text.pieces '/' ("/".intercalate (name :: names)) = name :: names := by
  induction names generalizing name with
  | nil =>
    rw [String.intercalate_singleton]
    exact Text.pieces_of_notMem '/' name (h name List.mem_cons_self)
  | cons next names ih =>
    obtain ⟨hname, hnames⟩ := List.forall_mem_cons.mp h
    rw [String.intercalate_cons_cons]
    calc Text.pieces '/' (name ++ "/" ++ "/".intercalate (next :: names))
        = Text.pieces '/' name ++ Text.pieces '/' ("/".intercalate (next :: names)) :=
          Text.pieces_append '/' name _
      _ = [name] ++ next :: names := by rw [Text.pieces_of_notMem '/' name hname, ih next hnames]

/-- Only pieces that do not count are dropped. -/
theorem filter_dropUncounted (pieces : List String) :
    (dropUncounted pieces).filter counts = pieces.filter counts := by
  induction pieces with
  | nil => rfl
  | cons piece pieces ih =>
    rw [dropUncounted]
    cases hcounts : counts piece with
    | true => rw [List.dropWhile_cons_of_neg (by simp [hcounts])]
    | false =>
      rw [List.dropWhile_cons_of_pos (by simp [hcounts]), List.filter_cons_of_neg (by simp [hcounts])]
      exact ih

/-- What is left after pieces were dropped begins with one that counts. -/
theorem counts_of_dropUncounted (pieces : List String) (last : String) (others : List String)
    (h : dropUncounted pieces = last :: others) : counts last = true := by
  have hhead := List.head?_dropWhile_not (fun piece => !counts piece) pieces
  rw [dropUncounted] at h
  simpa [h] using hhead

/-- The pieces that count are those before the last one, and this one. -/
theorem filter_counts_of_dropUncounted (rest : List String) (last : String) (others : List String)
    (h : dropUncounted rest.reverse = last :: others) :
    rest.filter counts = (dropUncounted others).reverse.filter counts ++ [last] := by
  have hlast : counts last = true := counts_of_dropUncounted rest.reverse last others h
  calc rest.filter counts
      = (rest.reverse.filter counts).reverse := by rw [List.filter_reverse, List.reverse_reverse]
    _ = ((last :: others).filter counts).reverse := by rw [← filter_dropUncounted rest.reverse, h]
    _ = (others.filter counts).reverse ++ [last] := by
        rw [List.filter_cons_of_pos hlast, List.reverse_cons]
    _ = (dropUncounted others).reverse.filter counts ++ [last] := by
        rw [List.filter_reverse, filter_dropUncounted]

/-- The pieces that stand before the last one that counts are pieces of the path. -/
theorem mem_of_mem_dropUncounted (rest : List String) (last : String) (others : List String)
    (h : dropUncounted rest.reverse = last :: others) (piece : String)
    (hpiece : piece ∈ (dropUncounted others).reverse) : piece ∈ rest := by
  have hothers : piece ∈ others := (List.dropWhile_suffix _).mem (List.mem_reverse.mp hpiece)
  have hleft : piece ∈ dropUncounted rest.reverse := h ▸ List.mem_cons_of_mem last hothers
  exact List.mem_reverse.mp ((List.dropWhile_suffix _).mem hleft)

/-- The directory above a path has the components of the path but the last one. -/
theorem components_parent? (path parent : String) (h : parent? path = some parent) :
    ∃ last, components path = components parent ++ [last] := by
  obtain ⟨first, rest, hpieces⟩ := List.exists_cons_of_ne_nil (Text.pieces_ne_nil '/' path)
  have hslash := Text.notMem_of_mem_pieces '/' path
  rw [hpieces, List.forall_mem_cons] at hslash
  simp only [parent?, hpieces] at h
  split at h
  · next last others hothers =>
    have hcounted := filter_counts_of_dropUncounted rest last others hothers
    have hjoined := pieces_intercalate first (dropUncounted others).reverse
      (List.forall_mem_cons.mpr ⟨hslash.1, fun piece hpiece =>
        hslash.2 piece (mem_of_mem_dropUncounted rest last others hothers piece hpiece)⟩)
    refine ⟨last, ?_⟩
    by_cases hfirst : first = ""
    · subst hfirst
      have hrest : rest ≠ [] := by
        rintro rfl
        contradiction
      rw [Tree.components_of_root path rest hrest hpieces, hcounted]
      split at h
      · next hroot =>
        obtain rfl := Option.some.inj h
        rw [List.isEmpty_iff.mp hroot.2]
        rfl
      · next hbelow =>
        obtain rfl := Option.some.inj h
        have hkept : (dropUncounted others).reverse ≠ [] := by simpa using hbelow
        rw [Tree.components_of_root _ _ hkept hjoined]
        rfl
    · rw [if_neg fun hroot => hfirst hroot.1] at h
      obtain rfl := Option.some.inj h
      rw [Tree.components_of_pieces path first rest hpieces hfirst, hcounted,
        Tree.components_of_pieces _ first _ hjoined hfirst]
      rfl
  · next hnone =>
    split at h
    · contradiction
    · next hfirst =>
      obtain rfl := Option.some.inj h
      have hcounted : rest.filter counts = [] := by
        rw [← List.reverse_eq_nil_iff, ← List.filter_reverse, ← filter_dropUncounted, hnone]
        rfl
      rw [Tree.components_of_pieces path first rest hpieces hfirst, hcounted]
      exact ⟨first, rfl⟩

/-- The path of a directory above another path has the first few components of that path. -/
theorem components_prefix_of_mem_ancestors (bound : Nat) (path above : String)
    (h : above ∈ ancestors bound path) : components above <+: components path := by
  induction bound generalizing path with
  | zero => contradiction
  | succ bound ih =>
    rw [ancestors] at h
    split at h
    · contradiction
    · rcases List.mem_cons.mp h with rfl | hmore
      · exact List.prefix_rfl
      · cases hparent : parent? path with
        | none => simp [hparent] at hmore
        | some parent =>
          simp only [hparent, Option.map_some, Option.getD_some] at hmore
          obtain ⟨last, hlast⟩ := components_parent? path parent hparent
          rw [hlast]
          exact (ih parent hmore).trans (List.prefix_append _ _)

/-- Paths with the first few components of another one, but not all of them. -/
def IsAbove (above path : String) : Prop :=
  ∃ rest, rest ≠ [] ∧ components path = components above ++ rest

/-- What is made before a file is written are the directories above it. -/
theorem isAbove_of_mem_ancestors (bound : Nat) (path parent above : String)
    (hparent : parent? path = some parent) (h : above ∈ ancestors bound parent) :
    IsAbove above path := by
  obtain ⟨last, hlast⟩ := components_parent? path parent hparent
  obtain ⟨rest, hrest⟩ := components_prefix_of_mem_ancestors bound parent above h
  refine ⟨rest ++ [last], by simp, ?_⟩
  rw [hlast, ← hrest, List.append_assoc]

end UnitSystems.Path
