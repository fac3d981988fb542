import Mathlib.Data.List.Nodup
import UnitSystems.Proofs.DefinitionFile.Written
import UnitSystems.Proofs.Validation.Valid

/-!
# What directives do to a definition

A directive sets one field, and an extra constant is added to those before it. Directives without
a fault are applied one after the other, whatever their spans: the result is the fold of what each
of them sets. Different directives set different fields, so their order does not matter as long as
the extra constants keep theirs. The directives of a written definition set every field to what it
was.
-/

namespace UnitSystems

namespace Directive

/-- A definition with the field of a directive set. -/
def setIn (d : Definition) : Directive → Definition
  | output target => { d with output := some target }
  | scalar type literal =>
    { d with scalarType := type, identityLiteral := literal.getD d.identityLiteral }
  | unitless name => { d with unitlessConstant := name }
  | root digits => { d with allowedRoot := (root? digits).getD d.allowedRoot }
  | units names => { d with units := names }
  | symbols texts => { d with symbols := texts }
  | constants names => { d with constants := names }
  | extra constant => { d with extraConstants := d.extraConstants ++ [constant] }

/-- Directives without a fault of their own: a root fits in 64 bits. -/
def IsApplicable : Directive → Prop
  | root digits => (root? digits).isSome = true
  | _ => True

/-- The words of the directives that must not repeat, in order. -/
def singleWords (directives : List Directive) : List String :=
  (directives.filter fun directive => !directive.mayRepeat).map word

end Directive

/-- The digits of a root that fits in 64 bits denote it. -/
theorem root?_repr (value : Int64) : root? value.toInt.repr = some value := by
  have hlow := value.le_toInt
  have hhigh := value.toInt_lt
  rw [root?, integerValue_repr, allowedRoot?, if_pos, Int64.ofInt_toInt]
  rw [Int64.toInt_minValue, Int64.toInt_maxValue]
  omega

/-- A directive with a written form has no fault of its own. -/
theorem Directive.IsWritable.isApplicable (directive : Directive) (h : directive.IsWritable) :
    directive.IsApplicable := by
  cases directive with
  | root digits =>
    obtain ⟨value, rfl⟩ := h
    exact Option.isSome_of_eq_some (root?_repr value)
  | _ => trivial

/-- A directive without a fault sets its field. -/
theorem apply_eq_ok_iff (d : Definition) (source : String) (span : Span) (directive : Directive)
    (e : Definition) : d.apply source span directive = .ok e ↔
      directive.IsApplicable ∧ e = directive.setIn d := by
  cases directive with
  | root digits =>
    cases hroot : root? digits <;>
      simp [Definition.apply, Directive.IsApplicable, Directive.setIn, hroot, eq_comm]
  | _ => simp [Definition.apply, Directive.IsApplicable, Directive.setIn, eq_comm]

/-- Only the directive for extra constants may repeat, and its word tells it. -/
theorem mayRepeat_eq (directive : Directive) :
    directive.mayRepeat = (directive.word == "extra") := by
  cases directive <;> rfl

/-- The words that must not repeat are not the word of the extra constants. -/
theorem ne_extra_of_mem (directives : List Directive) (word : String)
    (h : word ∈ Directive.singleWords directives) : word ≠ "extra" := by
  obtain ⟨directive, hmem, rfl⟩ := List.mem_map.mp h
  have hsingle := (List.mem_filter.mp hmem).2
  simpa [mayRepeat_eq] using hsingle

/-- Directives are applied one after the other exactly when each of them can be and none stands
twice that must not. Their spans do not matter. -/
theorem applyAll_eq_ok_iff (source : String) (located : List (Span × Directive))
    (seen : List String) (d e : Definition) :
    Definition.applyAll source seen d located = .ok e ↔
      (∀ entry ∈ located, entry.2.IsApplicable) ∧
        ((Directive.singleWords (located.map (·.2))).Nodup ∧
          ∀ word ∈ Directive.singleWords (located.map (·.2)), word ∉ seen) ∧
        e = (located.map (·.2)).foldl Directive.setIn d := by
  induction located generalizing seen d with
  | nil => simp [Definition.applyAll, Directive.singleWords, eq_comm]
  | cons entry located ih =>
    obtain ⟨span, directive⟩ := entry
    have hnext (h : (!directive.mayRepeat && seen.contains directive.word) = false) :
        Definition.applyAll source seen d ((span, directive) :: located) = .ok e ↔
          directive.IsApplicable ∧ Definition.applyAll source (directive.word :: seen)
            (directive.setIn d) located = .ok e := by
      rw [Definition.applyAll, if_neg (by rw [h]; exact Bool.false_ne_true)]
      cases happly : d.apply source span directive with
      | ok next =>
        obtain ⟨happlicable, rfl⟩ := (apply_eq_ok_iff d source span directive next).mp happly
        simp [happlicable]
      | error complaint =>
        refine iff_of_false (by simp) fun h => ?_
        rw [(apply_eq_ok_iff d source span directive _).mpr ⟨h.1, rfl⟩] at happly
        contradiction
    rw [List.forall_mem_cons, List.map_cons, List.foldl_cons]
    cases hrepeat : directive.mayRepeat with
    | true =>
      -- its word is seen from here on, which no other directive minds
      have hwords : Directive.singleWords (directive :: located.map (·.2)) =
          Directive.singleWords (located.map (·.2)) := by
        simp [Directive.singleWords, hrepeat]
      have hseen :
          (∀ word ∈ Directive.singleWords (located.map (·.2)), word ∉ directive.word :: seen) ↔
            ∀ word ∈ Directive.singleWords (located.map (·.2)), word ∉ seen := by
        refine forall₂_congr fun word hmem => ?_
        have hextra : directive.word = "extra" := by simpa [mayRepeat_eq] using hrepeat
        rw [hextra, List.mem_cons, or_iff_right (ne_extra_of_mem _ word hmem)]
      rw [hnext (by simp [hrepeat]), ih, hwords, hseen]
      simp only [and_assoc]
    | false =>
      have hwords : Directive.singleWords (directive :: located.map (·.2)) =
          directive.word :: Directive.singleWords (located.map (·.2)) := by
        simp [Directive.singleWords, hrepeat]
      have hfresh := Definition.nodup_fresh_cons_iff (fun _ => True) seen
        (Directive.singleWords (located.map (·.2))) directive.word
      simp only [and_true, true_and] at hfresh
      rw [hwords, hfresh]
      by_cases hseen : directive.word ∈ seen
      · refine iff_of_false ?_ fun h => h.2.1.1 hseen
        simp [Definition.applyAll, hrepeat, hseen]
      · rw [hnext (by simp [hseen]), ih, and_iff_right hseen]
        simp only [and_assoc]

/-- A system describes a definition exactly when each of its directives can be applied and none
stands twice that must not. The spans of the directives do not matter. -/
theorem ofText_eq_ok_iff (source : String) (system : SystemText) (d : Definition) :
    Definition.ofText source system = .ok d ↔
      (∀ directive ∈ system.directives.map (·.2), directive.IsApplicable) ∧
        (Directive.singleWords (system.directives.map (·.2))).Nodup ∧
        d = { (system.directives.map (·.2)).foldl Directive.setIn { name := system.name } with
          source := some source, span := some system.span } := by
  simp only [Definition.ofText, map_eq_ok_iff, applyAll_eq_ok_iff, List.forall_mem_map]
  constructor
  · rintro ⟨e, ⟨happlicable, ⟨hnodup, -⟩, rfl⟩, rfl⟩
    exact ⟨happlicable, hnodup, rfl⟩
  · rintro ⟨happlicable, hnodup, rfl⟩
    exact ⟨_, ⟨happlicable, ⟨hnodup, fun _ _ => List.not_mem_nil⟩, rfl⟩, rfl⟩

/-- Directives with different words set different fields. -/
theorem setIn_comm {first second : Directive} (hword : first.word ≠ second.word) (d : Definition) :
    second.setIn (first.setIn d) = first.setIn (second.setIn d) := by
  cases first <;> cases second <;> first | rfl | exact absurd rfl hword

/-- A directive can be set before directives with other words. -/
theorem foldl_setIn_comm (directive : Directive) (directives : List Directive)
    (hwords : ∀ other ∈ directives, other.word ≠ directive.word) (d : Definition) :
    directives.foldl Directive.setIn (directive.setIn d) =
      directive.setIn (directives.foldl Directive.setIn d) := by
  induction directives generalizing d with
  | nil => rfl
  | cons other directives ih =>
    obtain ⟨hother, hdirectives⟩ := List.forall_mem_cons.mp hwords
    rw [List.foldl_cons, List.foldl_cons, setIn_comm hother.symm, ih hdirectives]

/-- The extra constants can be added after everything else is set. -/
theorem foldl_setIn_partition (directives : List Directive) (d : Definition) :
    directives.foldl Directive.setIn d =
      (directives.filter Directive.mayRepeat).foldl Directive.setIn
        ((directives.filter fun directive => !directive.mayRepeat).foldl Directive.setIn d) := by
  induction directives generalizing d with
  | nil => rfl
  | cons directive directives ih =>
    rw [List.foldl_cons, ih]
    cases hrepeat : directive.mayRepeat with
    | false => simp [hrepeat]
    | true =>
      have hextra : directive.word = "extra" := by simpa [mayRepeat_eq] using hrepeat
      have hwords : ∀ other ∈ directives.filter fun other => !other.mayRepeat,
          other.word ≠ directive.word := fun other hother =>
        hextra ▸ ne_extra_of_mem directives other.word (List.mem_map_of_mem hother)
      simp [hrepeat, foldl_setIn_comm directive _ hwords]

/-- Directives set the same fields in every order in which the extra constants keep theirs. -/
theorem foldl_setIn_perm {first second : List Directive} (hperm : first.Perm second)
    (hextra : first.filter Directive.mayRepeat = second.filter Directive.mayRepeat)
    (hnodup : (Directive.singleWords first).Nodup) (d : Definition) :
    first.foldl Directive.setIn d = second.foldl Directive.setIn d := by
  have hsingles := hperm.filter fun directive => !directive.mayRepeat
  rw [foldl_setIn_partition first, foldl_setIn_partition second, hextra,
    hsingles.foldl_eq' fun one hone other hother e => ?_]
  by_cases heq : one = other
  · rw [heq]
  · exact setIn_comm (fun hword => heq (List.inj_on_of_nodup_map hnodup hone hother hword)) e

/-- Extra constants are added one after the other. -/
theorem foldl_extra (constants : List ExtraConstant) (d : Definition) :
    (constants.map Directive.extra).foldl Directive.setIn d =
      { d with extraConstants := d.extraConstants ++ constants } := by
  induction constants generalizing d with
  | nil => simp
  | cons constant constants ih => simp [Directive.setIn, ih]

/-- The words of two runs of directives stand one after the other. -/
theorem singleWords_append (first second : List Directive) :
    Directive.singleWords (first ++ second) =
      Directive.singleWords first ++ Directive.singleWords second := by
  simp [Directive.singleWords]

/-- The directives of a definition that must not repeat stand in the order of their words. -/
theorem singleWords_directives (d : Definition) :
    (Directive.singleWords d.directives).Sublist
      (["output"] ++ ["scalar", "unitless", "root"] ++ ["units"] ++ ["symbols"] ++
        ["constants"]) := by
  have hextra : Directive.singleWords (d.extraConstants.map .extra) = [] := by
    simp [Directive.singleWords, Directive.mayRepeat]
  have hlist (items : List String) (directive : Directive) :
      (Directive.singleWords (if items = [] then [] else [directive])).Sublist
        [directive.word] := by
    split
    · exact List.nil_sublist _
    · exact List.Sublist.map Directive.word List.filter_sublist
  have houtput : (Directive.singleWords (d.output.toList.map .output)).Sublist ["output"] := by
    cases d.output with
    | none => exact List.nil_sublist _
    | some target => exact List.Sublist.refl _
  rw [Definition.directives, singleWords_append, hextra, List.append_nil, singleWords_append,
    singleWords_append, singleWords_append, singleWords_append]
  exact (((houtput.append (List.Sublist.refl _)).append (hlist _ _)).append (hlist _ _)).append
    (hlist _ _)

/-- The directives of a definition set every field to what it was. -/
theorem foldl_directives (d : Definition) :
    d.directives.foldl Directive.setIn { name := d.name } =
      { d with source := none, span := none } := by
  -- what is left out has its default before
  have houtput (e : Definition) (he : e.output = none) :
      (d.output.toList.map Directive.output).foldl Directive.setIn e =
        { e with output := d.output } := by
    cases e
    cases h : d.output <;> simp_all [Directive.setIn]
  have hunits (e : Definition) (he : e.units = []) :
      (if d.units = [] then [] else [Directive.units d.units]).foldl Directive.setIn e =
        { e with units := d.units } := by
    cases e
    split <;> simp_all [Directive.setIn]
  have hsymbols (e : Definition) (he : e.symbols = []) :
      (if d.symbols = [] then [] else [Directive.symbols d.symbols]).foldl Directive.setIn e =
        { e with symbols := d.symbols } := by
    cases e
    split <;> simp_all [Directive.setIn]
  have hconstants (e : Definition) (he : e.constants = []) :
      (if d.constants = [] then [] else [Directive.constants d.constants]).foldl
        Directive.setIn e = { e with constants := d.constants } := by
    cases e
    split <;> simp_all [Directive.setIn]
  rw [Definition.directives, List.foldl_append, List.foldl_append, List.foldl_append,
    List.foldl_append, List.foldl_append, houtput _ rfl, hunits _ rfl, hsymbols _ rfl,
    hconstants _ rfl, foldl_extra]
  simp [Directive.setIn, root?_repr]

/-- The directives of a definition with a written form, with whatever spans, are applied without a
fault and give the definition. -/
theorem applyAll_directives (d : Definition) (hd : d.IsWritable) (source : String)
    (located : List (Span × Directive)) (hlocated : located.map (·.2) = d.directives) :
    Definition.applyAll source [] { name := d.name } located =
      .ok { d with source := none, span := none } := by
  rw [applyAll_eq_ok_iff, hlocated, foldl_directives]
  refine ⟨fun entry hentry => ?_, ⟨(singleWords_directives d).nodup (by decide), by simp⟩, rfl⟩
  exact (hd.directives d entry.2 (hlocated ▸ List.mem_map_of_mem hentry)).isApplicable

end UnitSystems
