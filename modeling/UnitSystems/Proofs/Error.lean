import UnitSystems.Error

/-!
# Several errors as one

Opening an error group by group gives its single errors, from left to right. Collecting errors keeps
the single errors of all of them in their order, and the report of an error is made of the reports
of its single errors in that order, with headings and empty lines between them and nothing else.
-/

namespace UnitSystems.Error

/-- The single errors of several errors are those of each, one after the other. -/
theorem leavesOf_eq_flatMap (errors : List Error) : leavesOf errors = errors.flatMap leaves := by
  induction errors with
  | nil => rfl
  | cons error errors ih => rw [leavesOf, ih, List.flatMap_cons]

/-- No error is collected exactly where there is none. -/
theorem collect_eq_none_iff (errors : List Error) : collect errors = none ↔ errors = [] := by
  match errors with
  | [] => exact iff_of_true rfl rfl
  | [_] => exact iff_of_false nofun nofun
  | _ :: _ :: _ => exact iff_of_false nofun nofun

/-- Collected errors have the single errors of each of them, one after the other. -/
theorem leaves_of_collect (errors : List Error) (error : Error)
    (h : collect errors = some error) : error.leaves = errors.flatMap leaves := by
  match errors, h with
  | [only], h =>
    obtain rfl := Option.some.inj h
    rw [List.flatMap_singleton]
  | first :: second :: rest, h =>
    obtain rfl := Option.some.inj h
    rw [leaves, leavesOf_eq_flatMap]

/-- A text that is made of the reports of errors in their order, with headings and empty lines in
front of and behind each. -/
inductive HoldsReports : List Error → String → Prop
  | nil : HoldsReports [] ""
  | heading {errors : List Error} {text : String} (h : HoldsReports errors text) :
      HoldsReports errors ("Multiple errors occurred:\n\n" ++ text)
  | emptyLine {errors : List Error} {text : String} (h : HoldsReports errors text) :
      HoldsReports errors ("\n\n" ++ text)
  | report (error : Error) {errors : List Error} {text : String} (h : HoldsReports errors text) :
      HoldsReports (error :: errors) (error.report ++ text)

/-- Texts that hold reports can be written one behind the other. -/
theorem HoldsReports.append {first second : List Error} {text rest : String}
    (hfirst : HoldsReports first text) (hsecond : HoldsReports second rest) :
    HoldsReports (first ++ second) (text ++ rest) := by
  induction hfirst with
  | nil => rwa [List.nil_append, String.empty_append]
  | heading _ ih =>
    rw [String.append_assoc]
    exact ih.heading
  | emptyLine _ ih =>
    rw [String.append_assoc]
    exact ih.emptyLine
  | report error _ ih =>
    rw [String.append_assoc]
    exact ih.report error

/-- The report of an error that is no group holds this error. -/
theorem holdsReports_single (error : Error) (h : ∀ errors, error ≠ several errors) :
    HoldsReports error.leaves error.report := by
  have hleaves : error.leaves = [error] := by
    rw [leaves]
    exact h
  have hreport := HoldsReports.nil.report error
  rwa [String.append_empty, ← hleaves] at hreport

-- The equations of `report` are stated by `rfl` where they are used: unfolding it as a whole would
-- spell out the names of the catalog.

/-- The report of a group is its heading and the reports of its errors. -/
theorem report_several (errors : List Error) :
    (several errors).report = "Multiple errors occurred:\n\n" ++ reports errors := rfl

/-- Every report in a group is followed by an empty line. -/
theorem reports_cons (error : Error) (errors : List Error) :
    reports (error :: errors) = error.report ++ "\n\n" ++ reports errors := rfl

mutual

/-- The report of an error is made of the reports of its single errors. -/
theorem holdsReports_leaves : ∀ error : Error, HoldsReports error.leaves error.report
  | parse _ _ => holdsReports_single _ nofun
  | specification _ => holdsReports_single _ nofun
  | dimension _ => holdsReports_single _ nofun
  | limitExceeded _ _ _ _ => holdsReports_single _ nofun
  | io _ _ => holdsReports_single _ nofun
  | unknownSystem _ => holdsReports_single _ nofun
  | several errors => by
    rw [leaves, report_several]
    exact (holdsReports_leavesOf errors).heading

/-- The reports of several errors are made of the reports of their single errors. -/
theorem holdsReports_leavesOf :
    ∀ errors : List Error, HoldsReports (leavesOf errors) (reports errors)
  | [] => .nil
  | error :: rest => by
    rw [leavesOf, reports_cons, String.append_assoc]
    exact (holdsReports_leaves error).append (holdsReports_leavesOf rest).emptyLine

end

end UnitSystems.Error
