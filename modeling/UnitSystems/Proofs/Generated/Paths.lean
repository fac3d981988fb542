import UnitSystems.Proofs.Generated.Declared

/-!
# Paths that a generated file has to find

A path is found by its first segment, and a type that the file declares comes before everything
outside the file. Validation reserves the last segment of the scalar type. The two segments are the
same one only in a path of a single segment, and so the theorem says which types still capture a
path.
-/

namespace UnitSystems.Names

/-- The segment that a path is found by, unless the path has a double colon in front and does not
start from the scope it stands in. -/
def firstSegment? (path : String) : Option String :=
  if "::".toList.isPrefixOf path.toList then none
  else some (String.ofList (beforeColons path.toList))

/-- A path of one segment ends in it. -/
theorem lastSegment_of_firstSegment? (path : String) (h : firstSegment? path = some path) :
    lastSegment path = path := by
  unfold firstSegment? at h
  split at h
  · contradiction
  have hfirst : beforeColons path.toList = path.toList := by
    have htext := congrArg String.toList (Option.some.inj h)
    rwa [String.toList_ofList] at htext
  have hlast : ¬"::".toList <:+: path.toList.reverse := fun hin =>
    (beforeColons_eq_self_iff path.toList).mp hfirst (List.reverse_infix.mp hin)
  rw [lastSegment, (beforeColons_eq_self_iff _).mpr hlast, List.reverse_reverse,
    String.ofList_toList]

end UnitSystems.Names

namespace UnitSystems.Generated

/-- The paths that an item refers to, besides the one of the runtime, which the options give. -/
def Item.paths : Item → List String
  | importOne path => [path]
  | constant _ _ scalar _ => [scalar]
  | _ => []

/-- A file refers to the marker type and, in every constant, to the scalar type. -/
theorem mem_paths_items (s : Specification) (options : Options) (path : String) :
    path ∈ (items s options).flatMap Item.paths ↔
      path = "std::marker::PhantomData" ∨ path = s.scalarType := by
  rw [flatMap_items Item.paths (fun _ => []) (by constructor <;> intros <;> rfl)]
  simp only [constants, constant, Item.paths, List.flatMap_cons, List.flatMap_map,
    List.mem_append, List.mem_cons, List.mem_flatMap, List.not_mem_nil, or_false, and_false,
    exists_const]
  constructor
  · rintro (h | h | ⟨_, -, h⟩)
    · exact .inl h
    · exact .inr h
    · exact .inr h
  · exact fun h => h.imp_right .inl

end UnitSystems.Generated

namespace UnitSystems

open Generated

/-- When no path of a file is captured by a type that the file declares: no type is called like the
standard library, and the scalar type does not begin with a declared type. Validation sees to the
latter only for the types of the definition and a path of one segment. -/
theorem types_capture_no_path_iff (d : Definition) (limits : Limits) (s : Specification)
    (hs : d.validate limits = .ok s) (options : Options) :
    (∀ path ∈ (items s options).flatMap Item.paths,
        ∀ name ∈ (items s options).flatMap Item.types, Names.firstSegment? path ≠ some name) ↔
      "std" ∉ d.name :: d.units ∧
        ∀ first, Names.firstSegment? d.scalarType = some first →
          first ≠ unitlessName ∧ (first ≠ d.scalarType → first ∉ d.name :: d.units) := by
  obtain ⟨htypes, hscalar, -, hreserved⟩ := d.types_of_validate limits s hs
  have hmem (name : String) : name ∈ (items s options).flatMap Item.types ↔
      name = unitlessName ∨ name ∈ d.name :: d.units := by
    rw [types_items, ← htypes, List.mem_cons, List.mem_cons, List.mem_cons, or_left_comm]
  -- The last segment of a path of one segment is the path, and it is reserved.
  have hwhole (name : String) (hname : name ∈ d.name :: d.units)
      (hfirst : Names.firstSegment? d.scalarType = some name) : name ≠ d.scalarType := by
    rintro rfl
    have hlast := Names.lastSegment_of_firstSegment? d.scalarType hfirst
    have hfree := hreserved _ hname
    simp [Names.isReserved, hlast] at hfree
  have hmarker : Names.firstSegment? "std::marker::PhantomData" = some "std" := by decide
  simp only [mem_paths_items, forall_eq_or_imp, forall_eq, hmem, hscalar, hmarker, ne_eq]
  refine and_congr ?_ ?_
  · constructor
    · exact fun h hstd => h.2 "std" hstd rfl
    · exact fun h => ⟨by decide, fun name hname heq => h (Option.some.inj heq ▸ hname)⟩
  · constructor
    · rintro ⟨hunitless, htypes⟩ first hfirst
      exact ⟨fun heq => hunitless (heq ▸ hfirst), fun _ hmem => htypes first hmem hfirst⟩
    · intro h
      refine ⟨fun hfirst => (h _ hfirst).1 rfl, fun name hname hfirst => ?_⟩
      exact (h name hfirst).2 (hwhole name hname hfirst) hname

/-- A system over the rational numbers of a crate, with one base unit. -/
def rationalDefinition (unit : String) : Definition where
  name := "Test"
  units := [unit]
  symbols := ["u"]
  constants := ["one_unit"]
  scalarType := "num::Ratio"

/-- A base unit with another name than the crate captures no path. -/
theorem types_capture_no_path_rational :
    ∃ s, (rationalDefinition "Part").validate {} = .ok s ∧
      ∀ path ∈ (items s {}).flatMap Item.paths, ∀ name ∈ (items s {}).flatMap Item.types,
        Names.firstSegment? path ≠ some name := by
  have hs : (rationalDefinition "Part").validate {} =
      .ok ((rationalDefinition "Part").toSpecification 1) :=
    eq_ok_of_toOption _ _ (by decide +kernel)
  refine ⟨_, hs, (types_capture_no_path_iff (rationalDefinition "Part") {} _ hs {}).mpr
    ⟨by decide, fun first hfirst => ?_⟩⟩
  obtain rfl : "num" = first := Option.some.inj hfirst
  exact ⟨by decide, fun _ => by decide⟩

/-- Nothing is wrong with a base unit that is named like the crate, and its type captures the
scalar type. -/
theorem type_of_unit_captures_scalar :
    ∃ s, (rationalDefinition "num").validate {} = .ok s ∧
      "num" ∈ (items s {}).flatMap Item.types ∧
      ∃ path ∈ (items s {}).flatMap Item.paths, Names.firstSegment? path = some "num" :=
  ⟨(rationalDefinition "num").toSpecification 1, eq_ok_of_toOption _ _ (by decide +kernel),
    by decide +kernel, "num::Ratio", by decide +kernel, by decide⟩

end UnitSystems
