import UnitSystems.Proofs.DefinitionFile.Declared

/-!
# Spans of definition files

The span of a definition covers its system, from the word that begins it: only blanks stand between
this word and the name. The spans of a file follow one another. A complaint about a file marks one
of its directives or the place where reading failed.
-/

namespace UnitSystems

open Grammar

/-- A span that begins with the word of a system and, behind blanks, the name of the system. -/
def Span.BeginsSystem (span : Span) (name : String) (text : List Char) : Prop :=
  ∃ blanks, blanks ≠ [] ∧ (∀ c ∈ blanks, isBlank c = true) ∧
    span.BeginsWith ("system".toList ++ (blanks ++ name.toList)) isNameChar text

/-- A definition with a sound span that begins with its declaration. -/
def Definition.IsMarkedIn (d : Definition) (text : String) : Prop :=
  ∃ span, d.span = some span ∧ span.IsSound text ∧ span.BeginsSystem d.name text.toList

/-- A gap has no comment when something else than a line break follows it. -/
theorem isBlank_of_mem_gap {text : List Char} {c : Char} (hhead : (gap text).2.head? = some c)
    (hc : isLineBreak c = false) : ∀ b ∈ (gap text).1, isBlank b = true := by
  unfold gap at hhead ⊢
  simp only [List.span_eq_takeWhile_dropWhile] at hhead ⊢
  split at hhead
  · have hbreak := head_dropWhile (fun c => !isLineBreak c) _ c hhead
    simp [hc] at hbreak
  · exact fun b hb => List.mem_takeWhile_imp hb

/-- The declaration of a system is its word, blanks and its name. -/
theorem exists_of_read_systemName {text rest : List Char} {pieces : List (Piece Part)}
    (h : Form.systemName.read text = some (pieces, rest)) :
    ∃ parts blanks, pieces = [.branch .systemName parts] ∧
      blanks ≠ [] ∧ (∀ c ∈ blanks, isBlank c = true) ∧
      Piece.textOf parts = "system".toList ++
        (blanks ++ (Directive.leafString .identifier parts).toList) ∧
      ∀ c ∈ rest.head?, isNameChar c = false := by
  obtain ⟨inner, hinner, rfl⟩ := Pattern.exists_of_read_branch h
  obtain ⟨first, middle, second, hfirst, hsecond, rfl⟩ := Pattern.exists_of_read_spaced hinner
  obtain ⟨word, hword, rfl⟩ := Pattern.exists_of_read_leaf hfirst
  obtain ⟨htext, hmiddle⟩ := (read_wholeWord_iff _ _ _ _).mp hword
  obtain ⟨-, rfl⟩ := Pattern.of_read_word htext
  obtain ⟨found, hfound, rfl⟩ := exists_of_afterGap hsecond
  obtain ⟨c, more, hc, hmore, rfl, hname, hrest⟩ := exists_of_read_identifier hfound
  have hstart : (gap middle).2.head? = some c := by rw [hname, List.head?_cons]
  have hnameChar : isNameChar c = true :=
    isNameChar_of_mem _ (isWord_cons c more hc hmore) c List.mem_cons_self
  have hbreak : isLineBreak c = false := by
    cases hbreak : isLineBreak c with
    | false => rfl
    | true =>
      obtain rfl | rfl : c = '\n' ∨ c = '\r' := by simpa [isLineBreak] using hbreak
      all_goals contradiction
  refine ⟨_, (gap middle).1, rfl, ?_, isBlank_of_mem_gap hstart hbreak, ?_, hrest⟩
  · -- the word would go on into the name
    intro hnil
    have hgap := gap_append middle
    rw [hnil, List.nil_append] at hgap
    rw [hgap] at hstart
    have hother := hmiddle c hstart
    rw [hnameChar] at hother
    contradiction
  · simp [Piece.textOf, Piece.text, Directive.leafString, leafText?]

/-- A system of a text has a sound span that begins with its declaration. -/
theorem isMarked_of_read_system {text : String} (before : List Char) {start rest : List Char}
    {inside : List (Piece Part)} (htext : text.toList = before ++ start)
    (h : Form.system.read start = some ([.branch .system inside], rest)) :
    (SystemText.ofParts (Place.after {} before) inside).span.IsSound text ∧
      (SystemText.ofParts (Place.after {} before) inside).span.BeginsSystem
        (SystemText.ofParts (Place.after {} before) inside).name text.toList := by
  obtain ⟨_, hinside, rfl⟩ := of_read_system h
  cases hinside
  refine ⟨StandsAt.isSound ⟨before, rest, htext, rfl⟩, ?_⟩
  obtain ⟨inner, hinner, heq⟩ := Pattern.exists_of_read_branch h
  cases heq
  obtain ⟨first, middle, below, hfirst, hbelow, rfl⟩ := Pattern.exists_of_read_spaced hinner
  have hmiddle := (Pattern.lossless _).afterGap _ _ _ hbelow
  obtain ⟨parts, blanks, rfl, hne, hblanks, hparts, hends⟩ := exists_of_read_systemName hfirst
  refine ⟨blanks, hne, hblanks, ?_⟩
  have hspan := beginsWith_covering isNameChar before (Piece.textOf parts) (Piece.textOf below)
    rest (hmiddle ▸ hends)
  rw [htext]
  show Span.BeginsWith _ ("system".toList ++ (blanks ++ (Directive.leafString _ parts).toList)) _ _
  rw [← hparts]
  exact hspan

/-- The systems that a text holds stand in it one behind the other. -/
theorem HoldsSystems.pairwise {place : Place} {text : List Char} {found : List SystemText}
    (h : HoldsSystems place text found) :
    (∀ system ∈ found, place.offset ≤ system.span.start) ∧
      found.Pairwise fun first second => first.span.stop ≤ second.span.start := by
  induction h with
  | done => simp
  | @more place padding start rest inside found hpadding hread hrest ih =>
    obtain ⟨hlater, hpairwise⟩ := ih
    have hplace := place.offset_le_after padding
    have hinside := (place.after padding).offset_le_after (Piece.textOf inside)
    refine ⟨List.forall_mem_cons.mpr ⟨hplace, fun system hsystem => ?_⟩,
      List.pairwise_cons.mpr ⟨hlater, hpairwise⟩⟩
    exact Nat.le_trans (Nat.le_trans hplace hinside) (hlater system hsystem)

/-- The definitions of systems have the names and the spans of the systems. -/
theorem map_name_span_ofTexts {source : String} {systems : List SystemText}
    {ds : List Definition} (h : Definition.ofTexts source systems = .ok ds) :
    ds.map (fun d => (d.name, d.span)) =
      systems.map fun system => (system.name, some system.span) := by
  induction systems generalizing ds with
  | nil =>
    obtain rfl : ds = [] := (Except.ok.inj h).symm
    rfl
  | cons system systems ih =>
    obtain ⟨d, others, hd, hothers, rfl⟩ := (ofTexts_cons_eq_ok_iff _ _ _ _).mp h
    have hname := (isDeclaredBy_of_ofText hd).name
    obtain ⟨-, -, rfl⟩ := (ofText_eq_ok_iff _ _ _).mp hd
    rw [List.map_cons, List.map_cons, ih hothers, hname]

/-- The definitions of a text have sound spans that begin with their declarations and follow one
another. -/
theorem marked_of_parse {text : String} {source : Option String} {limits : Limits}
    {ds : List Definition} (h : DefinitionFile.parse text source limits = .ok ds) :
    (∀ d ∈ ds, d.IsMarkedIn text) ∧
      (ds.filterMap (·.span)).Pairwise fun first second => first.stop ≤ second.start := by
  obtain ⟨-, found, hfound, hds⟩ := (parse_eq_ok_iff _ _ _ _).mp h
  have hmap := map_name_span_ofTexts hds
  constructor
  · intro d hd
    have hmem := List.mem_map_of_mem (f := fun d : Definition => (d.name, d.span)) hd
    rw [hmap, List.mem_map] at hmem
    obtain ⟨system, hsystem, heq⟩ := hmem
    obtain ⟨hname, hspan⟩ := Prod.mk.inj heq
    obtain ⟨front, start, rest, inside, htext, hread, rfl⟩ :=
      hfound.exists_read system hsystem
    obtain ⟨hsound, hbegins⟩ := isMarked_of_read_system front htext hread
    exact ⟨_, hspan.symm, hsound, hname ▸ hbegins⟩
  · have hspans : ds.filterMap (·.span) = found.map (·.span) :=
      calc ds.filterMap (·.span)
          = (ds.map fun d => (d.name, d.span)).filterMap (·.2) := by
            rw [List.filterMap_map]
            rfl
        _ = found.map (·.span) := by
            rw [hmap, List.filterMap_map]
            exact congrFun List.filterMap_eq_map found
    rw [hspans, List.pairwise_map]
    exact hfound.pairwise.2

/-- A directive that cannot be applied is marked as a whole. -/
theorem span_of_apply_error {d : Definition} {source : String} {span : Span}
    {directive : Directive} {complaint : Complaint}
    (h : d.apply source span directive = .error complaint) : complaint.span = span := by
  cases directive with
  | root digits =>
    unfold Definition.apply at h
    cases hroot : root? digits with
    | some value => simp [hroot] at h
    | none =>
      simp only [hroot, Except.error.injEq] at h
      rw [← h]
  | _ => contradiction

/-- Of directives that cannot all be applied, one is marked as a whole. -/
theorem exists_of_applyAll_error {source : String} {entries : List (Span × Directive)}
    {seen : List String} {d : Definition} {complaint : Complaint}
    (h : Definition.applyAll source seen d entries = .error complaint) :
    ∃ entry ∈ entries, complaint.span = entry.1 := by
  induction entries generalizing seen d with
  | nil => contradiction
  | cons entry entries ih =>
    rw [Definition.applyAll] at h
    split at h
    · obtain rfl := Except.error.inj h
      exact ⟨entry, List.mem_cons_self, rfl⟩
    · split at h
      · obtain ⟨other, hother, hspan⟩ := ih h
        exact ⟨other, List.mem_cons_of_mem entry hother, hspan⟩
      · next happly =>
        obtain rfl := Except.error.inj h
        exact ⟨entry, List.mem_cons_self, span_of_apply_error happly⟩

/-- Of systems that do not all describe definitions, one directive is marked as a whole. -/
theorem exists_of_ofTexts_error {source : String} {systems : List SystemText}
    {complaint : Complaint} (h : Definition.ofTexts source systems = .error complaint) :
    ∃ system ∈ systems, ∃ entry ∈ system.directives, complaint.span = entry.1 := by
  induction systems with
  | nil => contradiction
  | cons system systems ih =>
    rw [Definition.ofTexts] at h
    split at h
    · obtain ⟨other, hother, hentry⟩ := ih ((map_eq_error_iff _ _ _).mp h)
      exact ⟨other, List.mem_cons_of_mem system hother, hentry⟩
    · next hsystem =>
      obtain rfl := Except.error.inj h
      rw [Definition.ofText, map_eq_error_iff] at hsystem
      exact ⟨system, List.mem_cons_self, exists_of_applyAll_error hsystem⟩

/-- The directives of a part of a text have sound spans. -/
theorem isSound_of_mem_directivesOf {text : String} {place : Place} {parts : List (Piece Part)}
    (h : StandsAt text.toList place (Piece.textOf parts)) :
    ∀ entry ∈ SystemText.directivesOf place parts, entry.1.IsSound text := by
  intro entry hentry
  obtain ⟨⟨start, piece⟩, hpiece, heq⟩ := List.mem_filterMap.mp hentry
  obtain ⟨directive, -, rfl⟩ := Option.map_eq_some_iff.mp heq
  exact (h.of_mem_located _ hpiece).isSound

/-- A complaint about a file marks a part of it. -/
theorem isSound_of_parse_error {text shown : String} {source : Option String} {limits : Limits}
    {complaint : Complaint}
    (h : DefinitionFile.parse text source limits = .error (.parse complaint shown)) :
    shown = text ∧ complaint.span.IsSound text := by
  unfold DefinitionFile.parse at h
  split at h
  · simp [DefinitionFile.tooLarge] at h
  simp only at h
  split at h
  · next hsystems =>
    obtain ⟨rfl, rfl⟩ := Error.parse.inj (Except.error.inj h)
    rw [DefinitionFile.systems, map_eq_error_iff] at hsystems
    exact ⟨rfl, isSound_of_readBranch hsystems⟩
  · next found hsystems =>
    split at h
    · next hds =>
      obtain ⟨rfl, rfl⟩ := Error.parse.inj (Except.error.inj h)
      refine ⟨rfl, ?_⟩
      obtain ⟨system, hsystem, entry, hentry, hspan⟩ := exists_of_ofTexts_error hds
      obtain ⟨front, start, rest, inside, htext, hread, rfl⟩ :=
        ((systems_eq_ok_iff _ _ _).mp hsystems).exists_read system hsystem
      obtain ⟨_, heq, rfl⟩ := of_read_system hread
      cases heq
      rw [hspan]
      exact isSound_of_mem_directivesOf ⟨front, rest, htext, rfl⟩ entry hentry
    · contradiction

end UnitSystems
