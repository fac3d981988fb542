import UnitSystems.Proofs.Validation.Valid

/-!
# What validation ensures of declared names

A file declares the types of its system and of its base units, and one constant for each of them.
The types are not reserved for the scalar type at hand. The constants are distinct identifiers,
and nothing else is asked of them.
-/

namespace UnitSystems.Names

/-- A character of a path stands in one of its segments or between two of them. -/
theorem mem_segments (path : List Char) (c : Char) (h : c ∈ path) :
    c = ':' ∨ ∃ segment ∈ segments path, c ∈ segment := by
  fun_induction segments path with
  | case1 => contradiction
  | case2 rest ih =>
    rw [List.mem_cons, List.mem_cons] at h
    rcases h with rfl | rfl | h
    · exact .inl rfl
    · exact .inl rfl
    · exact (ih h).imp_right fun ⟨segment, hsegment, hc⟩ =>
        ⟨segment, List.mem_cons_of_mem _ hsegment, hc⟩
  | case3 first rest hcolons hnone ih =>
    rcases List.mem_cons.mp h with rfl | h
    · exact .inr ⟨[c], List.mem_cons_self, List.mem_cons_self⟩
    · exact (ih h).imp_right fun ⟨segment, hsegment, hc⟩ => by simp [hnone] at hsegment
  | case4 first rest hcolons segment others hsegments ih =>
    rcases List.mem_cons.mp h with rfl | h
    · exact .inr ⟨c :: segment, List.mem_cons_self, List.mem_cons_self⟩
    · refine (ih h).imp_right fun ⟨other, hother, hc⟩ => ?_
      rw [hsegments, List.mem_cons] at hother
      rcases hother with rfl | hother
      · exact ⟨first :: other, List.mem_cons_self, List.mem_cons_of_mem _ hc⟩
      · exact ⟨other, List.mem_cons_of_mem _ hother, hc⟩

/-- Words consist of letters, digits and underscores. -/
theorem isRest_of_mem_word (word : List Char) (h : isWord word = true) :
    ∀ c ∈ word, isRest c = true := by
  cases word with
  | nil => contradiction
  | cons first rest =>
    simp only [isWord, Bool.and_eq_true, List.all_eq_true] at h
    rw [List.forall_mem_cons]
    exact ⟨by simp [isRest, h.1], h.2⟩

/-- The path of a type consists of words and colons. -/
theorem isRest_of_mem_path (path : String) (h : isTypePath path = true) (c : Char)
    (hc : c ∈ path.toList) : c = ':' ∨ isRest c = true := by
  rw [isTypePath, List.all_eq_true] at h
  have hrelative : c ∈ relative path.toList → c = ':' ∨ isRest c = true := fun hmem =>
    (mem_segments _ c hmem).imp_right fun ⟨segment, hsegment, hin⟩ =>
      isRest_of_mem_word segment (h segment hsegment) c hin
  unfold relative at hrelative
  split at hrelative
  · next rest heq =>
    rw [heq, List.mem_cons, List.mem_cons] at hc
    rcases hc with rfl | rfl | hc
    · exact .inl rfl
    · exact .inl rfl
    · exact hrelative hc
  · exact hrelative hc

/-- A character that no word goes on with stands in the path of no type, unless it is a colon. -/
theorem notMem_of_isTypePath (path : String) (h : isTypePath path = true) (c : Char)
    (hcolon : c ≠ ':') (hc : isRest c = false) : c ∉ path.toList := by
  intro hmem
  rcases isRest_of_mem_path path h c hmem with heq | hrest
  · exact hcolon heq
  · rw [hrest] at hc
    contradiction

/-- Nothing is cut off from a text without double colons, and from no other. -/
theorem beforeColons_eq_self_iff (text : List Char) :
    beforeColons text = text ↔ ¬"::".toList <:+: text := by
  fun_induction beforeColons text with
  | case1 => simp
  | case2 rest =>
    refine iff_of_false (by simp) fun h => h ?_
    exact (List.prefix_append "::".toList rest).isInfix
  | case3 c rest hcolons ih =>
    have hprefix : ¬"::".toList <+: c :: rest := by
      rintro ⟨more, heq⟩
      obtain ⟨rfl, rfl⟩ := List.cons.inj heq
      exact hcolons more rfl rfl
    rw [List.cons.injEq, and_iff_right rfl, ih, List.infix_cons_iff, or_iff_right hprefix]

end UnitSystems.Names

namespace UnitSystems.Definition

/-- Constants have no defects exactly when they are distinct from one another and from those before
them, and each of them is an identifier. -/
theorem constantDefects_eq_nil_iff (d : Definition) (seen constants : List String) :
    d.constantDefects seen constants = [] ↔ constants.Nodup ∧ ∀ constant ∈ constants,
      constant ∉ seen ∧ Names.isIdentifier constant = true := by
  induction constants generalizing seen with
  | nil => simp [constantDefects]
  | cons constant constants ih =>
    rw [nodup_fresh_cons_iff, ← ih]
    simp [constantDefects, and_assoc]

/-- The constants of a valid system are those of its definition, and its literal is the one of the
definition without the white space around it. The constants are distinct identifiers. -/
theorem constants_of_validate (d : Definition) (limits : Limits) (s : Specification)
    (h : d.validate limits = .ok s) :
    s.unitlessConstant :: s.baseUnits.map (·.constant) = d.unitlessConstant :: d.constants ∧
      s.identityLiteral = Text.trimmed d.identityLiteral ∧
      (d.unitlessConstant :: d.constants).Nodup ∧
      ∀ name ∈ d.unitlessConstant :: d.constants, Names.isIdentifier name = true := by
  obtain ⟨hlists, -, hdefects, root, -, rfl⟩ := (d.validate_eq_ok_iff limits s).mp h
  obtain ⟨hsymbols, hlengths, -⟩ := d.listDefect_eq_none_iff.mp hlists
  simp only [defects, fieldDefects, List.append_eq_nil_iff] at hdefects
  obtain ⟨⟨⟨⟨-, hunitless⟩, -⟩, -⟩, hconstants⟩ := hdefects
  obtain ⟨hnodup, hdeclared⟩ := (d.constantDefects_eq_nil_iff _ d.constants).mp hconstants
  refine ⟨?_, rfl, ?_, ?_⟩
  · exact congrArg _ (constants_zipUnits d.units d.symbols d.constants hsymbols hlengths)
  · exact List.nodup_cons.mpr
      ⟨fun hmem => (hdeclared _ hmem).1 List.mem_cons_self, hnodup⟩
  · rw [List.forall_mem_cons]
    exact ⟨by simpa using hunitless, fun name hname => (hdeclared name hname).2⟩

/-- The types of a valid system are those of its definition. The scalar type is a path, and none of
the types is reserved for it. -/
theorem types_of_validate (d : Definition) (limits : Limits) (s : Specification)
    (h : d.validate limits = .ok s) :
    s.name :: s.identifiers = d.name :: d.units ∧ s.scalarType = d.scalarType ∧
      Names.isTypePath d.scalarType = true ∧
      ∀ name ∈ d.name :: d.units, Names.isReserved name d.scalarType = false := by
  obtain ⟨hlists, -, hdefects, root, -, rfl⟩ := (d.validate_eq_ok_iff limits s).mp h
  obtain ⟨hsymbols, hlengths, -⟩ := d.listDefect_eq_none_iff.mp hlists
  simp only [defects, fieldDefects, List.append_eq_nil_iff] at hdefects
  obtain ⟨⟨⟨⟨⟨⟨⟨hname, -⟩, hpath⟩, -⟩, -⟩, hunits⟩, -⟩, -⟩ := hdefects
  refine ⟨?_, rfl, ?_, ?_⟩
  · exact congrArg _ (identifiers_zipUnits d.units d.symbols d.constants hsymbols hlengths)
  · simpa using hpath
  · rw [List.forall_mem_cons]
    refine ⟨(d.nameDefects_eq_nil_iff.mp hname).2.1, fun unit hunit => ?_⟩
    have hfree := (((d.unitDefects_eq_nil_iff [] d.units).mp hunits).2 unit hunit).2.2
    rw [isReservedUnit, Bool.or_eq_false_iff] at hfree
    exact hfree.1

end UnitSystems.Definition
