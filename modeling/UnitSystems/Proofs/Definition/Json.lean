import UnitSystems.Definition.Json
import UnitSystems.Generated.File
import UnitSystems.Proofs.Json.RoundTrip

/-!
# Definitions written as JSON

A definition that was written as JSON is read back without its source and its span, which are not
written. What is left out when it is not declared has a default, and the default is the value that
was left out. Neither validation nor generation looks at the source or the span, so a definition
and what is read back have the same outcomes.
-/

namespace UnitSystems

namespace Json

/-- A list of values is read back when every value is. -/
theorem listOf?_map {α : Type} (read : Json → Option α) (write : α → Json) (items : List α)
    (h : ∀ item ∈ items, read (write item) = some item) :
    listOf? read (.array (items.map write)) = some items := by
  rw [listOf?]
  induction items with
  | nil => rfl
  | cons item items ih =>
    rw [List.forall_mem_cons] at h
    rw [List.map_cons, List.mapM_cons, h.1, ih h.2]
    rfl

/-- A list of strings is read back. -/
theorem listOf?_strings (items : List String) : listOf? asString? (.strings items) = some items :=
  listOf?_map asString? .string items fun _ _ => rfl

/-- A list of strings has no part that is only kept as it was written. -/
theorem isUnderstood_strings (items : List String) : (strings items).IsUnderstood :=
  .array _ (List.forall_mem_map.mpr fun item _ => .string item)

/-- An integer of 64 bits is read back. -/
theorem asInt64?_toInt (n : Int64) : asInt64? (.integer n.toInt) = some n := by
  have hfits : Int64.minValue.toInt ≤ n.toInt ∧ n.toInt ≤ Int64.maxValue.toInt :=
    ⟨n.minValue_le_toInt, n.toInt_le⟩
  rw [asInt64?, asInteger?, Option.bind_some, allowedRoot?, if_pos hfits, Int64.ofInt_toInt]

/-- The members of an object are found under their keys when these are among the fields and
distinct. -/
theorem fields?_object (keys : List String) (members : List (String × Json))
    (hkeys : (members.map Prod.fst).Sublist keys) (hnodup : keys.Nodup) :
    fields? keys (.object members) = some members := by
  have hknown : members.filter (fun member => keys.contains member.1) = members := by
    rw [List.filter_eq_self]
    intro member hmember
    rw [List.contains_iff_mem]
    exact hkeys.subset (List.mem_map_of_mem hmember)
  simp only [fields?, hknown, hnodup.sublist hkeys, ↓reduceIte]

end Json

/-- An extra constant is read back. -/
theorem ExtraConstant.ofJson?_toJson (e : ExtraConstant) :
    ExtraConstant.ofJson? e.toJson = some e := by
  rw [ofJson?, toJson, Json.fields?_object fields _ (List.Sublist.refl _) (by decide)]
  rfl

/-- An extra constant has no part that is only kept as it was written. -/
theorem ExtraConstant.isUnderstood_toJson (e : ExtraConstant) : e.toJson.IsUnderstood := by
  refine .object _ ?_
  rw [List.forall_mem_cons, List.forall_mem_singleton]
  exact ⟨.string e.name, .string e.expression⟩

namespace Definition

/-- A definition without what says where it comes from. -/
def withoutOrigin (d : Definition) : Definition :=
  { d with source := none, span := none }

/-- The keys of a definition are fields, in the order of the fields. -/
theorem sublist_keys (d : Definition) : (d.members.map Prod.fst).Sublist fields := by
  unfold members
  cases d.output <;> cases d.extraConstants <;> simp [fields]

/-- The output of a definition is read back, also when there is none. -/
theorem output_members (d : Definition) :
    Json.optional? "output" (Json.nullable? Json.asString?) none d.members = some d.output := by
  unfold members
  cases d.output <;> cases d.extraConstants <;> rfl

/-- The extra constants of a definition are read back, also when there are none. -/
theorem extraConstants_members (d : Definition) :
    Json.optional? "extraConstants" (Json.listOf? ExtraConstant.ofJson?) [] d.members =
      some d.extraConstants := by
  have hread := Json.listOf?_map ExtraConstant.ofJson? ExtraConstant.toJson d.extraConstants
    fun e _ => e.ofJson?_toJson
  unfold members
  cases hextra : d.extraConstants with
  | nil => cases d.output <;> rfl
  | cons e rest =>
    rw [hextra] at hread
    cases d.output <;> exact hread

/-- A definition is read back without its origin. -/
theorem ofJson?_toJson (d : Definition) : ofJson? d.toJson = some d.withoutOrigin := by
  rw [ofJson?, toJson, Json.fields?_object fields d.members d.sublist_keys (by decide)]
  have hunits := Json.listOf?_strings d.units
  have hsymbols := Json.listOf?_strings d.symbols
  have hconstants := Json.listOf?_strings d.constants
  have hroot := Json.asInt64?_toInt d.allowedRoot
  simp only [bind, Option.bind, output_members, extraConstants_members]
  unfold members
  cases houtput : d.output <;>
    simp [Json.required?, Json.optional?, List.lookup_cons, hunits, hsymbols, hconstants, hroot,
      Json.asString?, withoutOrigin, houtput]

/-- A definition has no part that is only kept as it was written. -/
theorem isUnderstood_toJson (d : Definition) : d.toJson.IsUnderstood := by
  have hextra : ∀ member ∈ (if d.extraConstants.isEmpty then []
      else [("extraConstants", Json.array (d.extraConstants.map ExtraConstant.toJson))]),
      member.2.IsUnderstood := by
    split
    · exact fun _ hmember => absurd hmember List.not_mem_nil
    · exact List.forall_mem_singleton.mpr
        (.array _ (List.forall_mem_map.mpr fun e _ => e.isUnderstood_toJson))
  refine .object _ ?_
  rw [members]
  simp only [List.forall_mem_append, List.forall_mem_cons, List.not_mem_nil, false_imp_iff,
    implies_true, and_true]
  refine ⟨⟨⟨.string _, ?_⟩, Json.isUnderstood_strings _, Json.isUnderstood_strings _,
    Json.isUnderstood_strings _, .string _, .string _, .string _, .integer _⟩, hextra⟩
  cases d.output with
  | none => exact fun _ hmember => absurd hmember List.not_mem_nil
  | some output => exact List.forall_mem_singleton.mpr (.string output)

/-- The defects of a definition do not depend on its origin. -/
theorem defects_withoutOrigin (d : Definition) : d.withoutOrigin.defects = d.defects := by
  have hunits : ∀ seen units, d.withoutOrigin.unitDefects seen units = d.unitDefects seen units := by
    intro seen units
    induction units generalizing seen with
    | nil => rfl
    | cons unit units ih =>
      rw [unitDefects, unitDefects, ih]
      rfl
  have hconstants : ∀ seen constants,
      d.withoutOrigin.constantDefects seen constants = d.constantDefects seen constants := by
    intro seen constants
    induction constants generalizing seen with
    | nil => rfl
    | cons constant constants ih =>
      rw [constantDefects, constantDefects, ih]
      rfl
  rw [defects, defects, hunits, hconstants]
  rfl

/-- Validation does not look at the origin of a definition. -/
theorem validate_withoutOrigin (d : Definition) (limits : Limits) :
    d.withoutOrigin.validate limits = d.validate limits := by
  unfold validate
  rw [defects_withoutOrigin]
  rfl

end Definition

/-- The text that a system is shown as in JSON is read back as its definition without the source and
the span. What is read back is validated and generated from with the same outcome, whatever the
limits and the options. -/
theorem shown_read_back (d : Definition) :
    ∃ read, (Json.parse (d.toJson.pretty ++ "\n")).bind Definition.ofJson? = some read ∧
      read = { d with source := none, span := none } ∧
      (∀ limits, read.validate limits = d.validate limits) ∧
      ∀ g : Generator, g.generate read = g.generate d := by
  have hbreak : "\n".toList.all Json.isSpace = true := by decide
  have hparse := Json.parse_pretty d.toJson d.isUnderstood_toJson "\n" (List.all_eq_true.mp hbreak)
  refine ⟨d.withoutOrigin, ?_, rfl, d.validate_withoutOrigin, fun g => ?_⟩
  · rw [hparse, Option.bind_some, d.ofJson?_toJson]
  · rw [Generator.generate, Generator.generate, d.validate_withoutOrigin]

end UnitSystems
