import Mathlib.Data.List.Perm.Basic
import UnitSystems.Proofs.DefinitionFile.Layout

/-!
# The order of directives

The directives of a system can change places, as long as the extra constants keep their order. The
text stays as long as it was, every directive is read as before, and together they set the same
fields.
-/

namespace UnitSystems

open Grammar

/-- Texts with the same characters have the same size. -/
theorem utf8Len_perm {first second : List Char} (h : first.Perm second) :
    String.utf8Len first = String.utf8Len second := by
  induction h with
  | nil => rfl
  | cons c _ ih => rw [String.utf8Len_cons, String.utf8Len_cons, ih]
  | swap c d text => simp only [String.utf8Len_cons, Nat.add_right_comm]
  | trans _ _ ih ih' => exact ih.trans ih'

/-- Whether a text is read as an extra constant. -/
def isExtraText (text : List Char) : Bool :=
  (Form.extra.read text).isSome

/-- A directive has the word of the form that it was read by. -/
theorem word_of_read_form (form : Pattern Part × String) (hform : form ∈ directiveForms)
    {text rest : List Char} {pieces : List (Piece Part)}
    (hread : form.1.read text = some (pieces, rest)) :
    ∀ directive ∈ pieces.filterMap Directive.ofPiece?, directive.word = form.2 := by
  simp only [directiveForms, List.mem_cons, List.not_mem_nil, or_false] at hform
  rcases hform with rfl | rfl | rfl | rfl | rfl | rfl | rfl | rfl <;>
    obtain ⟨inner, -, rfl⟩ := Pattern.exists_of_read_branch hread <;>
    exact fun directive hmem => List.mem_singleton.mp hmem ▸ rfl

/-- Only a text that is read as an extra constant gives a directive that may repeat. -/
theorem isExtraText_of_mayRepeat {text : List Char} {directive : Directive}
    (hmem : directive ∈ Directive.inText text) (hrepeat : directive.mayRepeat = true) :
    isExtraText text = true := by
  cases hread : Form.directive.read text with
  | none => simp [Directive.inText, hread] at hmem
  | some reading =>
    rw [Directive.inText, hread] at hmem
    obtain ⟨form, hform, hreadForm⟩ := (read_directive_iff _ _).mp hread
    have hword : form.2 = "extra" := by
      rw [← word_of_read_form form hform hreadForm directive hmem]
      simpa [mayRepeat_eq] using hrepeat
    have hextra : (Form.extra, "extra") ∈ directiveForms := by simp [directiveForms]
    obtain rfl := form_eq_of_word hform hextra hword
    exact Option.isSome_of_eq_some hreadForm

/-- The directives that may repeat are those of the texts of extra constants. -/
theorem filter_mayRepeat_inText (texts : List (List Char)) :
    (texts.flatMap Directive.inText).filter Directive.mayRepeat =
      (texts.filter isExtraText).flatMap fun text =>
        (Directive.inText text).filter Directive.mayRepeat := by
  induction texts with
  | nil => rfl
  | cons text texts ih =>
    rw [List.flatMap_cons, List.filter_append, ih]
    cases hextra : isExtraText text with
    | true => rw [List.filter_cons_of_pos hextra, List.flatMap_cons]
    | false =>
      have hnone : (Directive.inText text).filter Directive.mayRepeat = [] := by
        refine List.filter_eq_nil_iff.mpr fun directive hmem hrepeat => ?_
        rw [isExtraText_of_mayRepeat hmem hrepeat] at hextra
        contradiction
      rw [List.filter_cons_of_neg (by simp [hextra]), hnone, List.nil_append]

/-- A layout with the directives of another one in an order that the extra constants keep, and with
the same line breaks at perhaps other places. -/
structure SystemLayout.IsReorderingOf (other layout : SystemLayout) : Prop where
  declaration : other.declaration = layout.declaration
  separators : (other.lines.map (·.1)).Perm (layout.lines.map (·.1))
  directives : (other.lines.map (·.2)).Perm (layout.lines.map (·.2))
  extra : (other.lines.map (·.2)).filter isExtraText = (layout.lines.map (·.2)).filter isExtraText
  ending : other.ending = layout.ending

namespace SystemLayout.IsReorderingOf

variable {other layout : SystemLayout} (h : other.IsReorderingOf layout)

include h

/-- A sound layout stays sound in another order. -/
theorem isSound (hlayout : layout.IsSound) : other.IsSound := by
  have hseparators : ∀ text ∈ layout.lines.map (·.1), IsSeparator text :=
    List.forall_mem_map.mpr hlayout.separators
  have hdirectives : ∀ text ∈ layout.lines.map (·.2), Fills Form.directive text :=
    List.forall_mem_map.mpr hlayout.directives
  exact
    { declaration := h.declaration ▸ hlayout.declaration
      separators := fun line hline =>
        hseparators _ (h.separators.mem_iff.mp (List.mem_map_of_mem hline))
      directives := fun line hline =>
        hdirectives _ (h.directives.mem_iff.mp (List.mem_map_of_mem hline))
      breaks := h.ending ▸ hlayout.breaks
      ends := h.ending ▸ hlayout.ends }

/-- The text has the same size in another order. -/
theorem utf8Len_eq : String.utf8Len other.text = String.utf8Len layout.text := by
  have hseparators : (other.lines.flatMap (·.1)).Perm (layout.lines.flatMap (·.1)) := by
    simpa only [List.flatMap_def] using h.separators.flatten
  have hdirectives : (other.lines.flatMap (·.2)).Perm (layout.lines.flatMap (·.2)) := by
    simpa only [List.flatMap_def] using h.directives.flatten
  have hlines : (other.lines.flatMap fun line => line.1 ++ line.2).Perm
      (layout.lines.flatMap fun line => line.1 ++ line.2) :=
    (List.flatMap_append_perm _ _ _).symm.trans
      ((hseparators.append hdirectives).trans (List.flatMap_append_perm _ _ _))
  refine utf8Len_perm ?_
  rw [text, text, h.declaration, h.ending]
  exact (hlines.append_right _).append_left _

/-- The extra constants are the same in another order. -/
theorem filter_mayRepeat : other.directives.filter Directive.mayRepeat =
    layout.directives.filter Directive.mayRepeat := by
  rw [SystemLayout.directives, SystemLayout.directives, filter_mayRepeat_inText, h.extra,
    filter_mayRepeat_inText]

end SystemLayout.IsReorderingOf

/-- The directives of a system, and the line breaks between them, can change places: when the text
is accepted, so is every text with the same directives in an order that the extra constants keep,
and nothing but the span of the definition changes. -/
theorem parse_reordered (layout other : SystemLayout) (hlayout : layout.IsSound)
    (hother : other.IsReorderingOf layout) (source : Option String) (limits : Limits)
    (ds : List Definition)
    (hparse : DefinitionFile.parse (String.ofList layout.text) source limits = .ok ds) :
    ∃ d span, ds = [d] ∧ DefinitionFile.parse (String.ofList other.text) source limits =
      .ok [{ d with span := some span }] := by
  have hperm : other.directives.Perm layout.directives := hother.directives.flatMap_right _
  have hwords : (Directive.singleWords other.directives).Perm
      (Directive.singleWords layout.directives) := (hperm.filter _).map _
  have hname : other.name = layout.name := by
    rw [SystemLayout.name, SystemLayout.name, hother.declaration]
  obtain ⟨_, hbefore⟩ := hlayout.exists_parse_iff
  obtain ⟨span, hafter⟩ := (hother.isSound hlayout).exists_parse_iff
  obtain ⟨hbound, happlicable, hnodup, rfl⟩ := (hbefore source limits ds).mp hparse
  refine ⟨_, span, rfl, (hafter source limits _).mpr ⟨hother.utf8Len_eq ▸ hbound, ?_, ?_, ?_⟩⟩
  · exact fun directive hmem => happlicable directive (hperm.mem_iff.mp hmem)
  · exact hwords.nodup_iff.mpr hnodup
  · rw [hname, foldl_setIn_perm hperm hother.filter_mayRepeat (hwords.nodup_iff.mpr hnodup)]

/-- A system with lists that end in commas, comments, an escaped line break and two extra
constants. -/
def motionLayout : SystemLayout where
  declaration := "system Motion # m".toList
  lines := [("\n".toList, "units M,\n # s\n S,".toList),
    ("\r\n#\n\t".toList, "extra g = 9".toList), ("\n".toList, "scalar f32".toList),
    ("\n".toList, "output \"\\\n\" #".toList), ("\r".toList, "extra h = g".toList)]
  ending := "\n# end".toList

/-- The same system with its directives in another order. -/
def reorderedLayout : SystemLayout where
  declaration := motionLayout.declaration
  lines := [("\r".toList, "scalar f32".toList), ("\n".toList, "extra g = 9".toList),
    ("\n".toList, "output \"\\\n\" #".toList),
    ("\r\n#\n\t".toList, "extra h = g".toList),
    ("\n".toList, "units M,\n # s\n S,".toList)]
  ending := motionLayout.ending

/-- The system in two orders is the same definition. -/
theorem parse_reordered_motion :
    let motion : Definition :=
      { name := "Motion", units := ["M", "S"], output := some "\n", scalarType := "f32",
        extraConstants := [⟨"g", "9"⟩, ⟨"h", "g"⟩], source := some "<input>",
        span := some ⟨0, 88, 1, 1⟩ }
    motionLayout.IsSound ∧ reorderedLayout.IsReorderingOf motionLayout ∧
      DefinitionFile.parse (String.ofList motionLayout.text) none {} = .ok [motion] ∧
      ∃ span, DefinitionFile.parse (String.ofList reorderedLayout.text) none {} =
        .ok [{ motion with span := some span }] := by
  intro motion
  have hsound : motionLayout.IsSound :=
    { declaration := by decide +kernel
      separators := by decide +kernel
      directives := by decide +kernel
      breaks := by rintro _ ⟨⟩; rfl
      ends := by decide +kernel }
  have hother : reorderedLayout.IsReorderingOf motionLayout :=
    ⟨rfl, by decide +kernel, by decide +kernel, by decide +kernel, rfl⟩
  have hparse : DefinitionFile.parse (String.ofList motionLayout.text) none {} = .ok [motion] := by
    apply eq_ok_of_toOption
    rw [DefinitionFile.parse, String.utf8ByteSize_ofList, String.toList_ofList]
    decide +kernel
  obtain ⟨d, span, hd, hafter⟩ := parse_reordered _ _ hsound hother none {} _ hparse
  cases hd
  exact ⟨hsound, hother, hparse, span, hafter⟩

end UnitSystems
