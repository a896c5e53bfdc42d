import AssessmentPlans.Proofs.Plan.Verdict
import AssessmentPlans.Proofs.Scope.Repetition
import AssessmentPlans.Proofs.Scope.Validity

/-! What is warned of after a tailoring, and what the report has said meanwhile. The top of a plan
keeps all of its selections, so both number them alike, and one of them is warned of when the
report names no control for it. -/
namespace AssessmentPlans

/-- Where a selection without controls is warned of. -/
def emptySelections (warnings : List Issue) : List String :=
  (warnings.filter (·.message = "selection includes no controls")).map (·.path)

/-- Where a report leaves a selection at the top without controls. -/
def Report.emptiedAtTop (r : Report) : List String :=
  (r.entries.filter fun e => e.location.branch = .top ∧ e.included = []).map (·.location.text)

/-! Warnings about selections. -/

theorem emptySelections_append (is js : List Issue) :
    emptySelections (is ++ js) = emptySelections is ++ emptySelections js := by
  rw [emptySelections, List.filter_append, List.map_append]
  rfl

theorem emptySelections_flatMap {α : Type} (xs : List α) (remarks : α → List Issue) :
    emptySelections (xs.flatMap remarks) = xs.flatMap fun x => emptySelections (remarks x) := by
  rw [emptySelections, List.filter_flatMap, List.map_flatMap]
  rfl

theorem Selection.remarks_empty (location : Location) (s : Selection) :
    emptySelections (s.remarks location) = if s.selectsAny then [] else [location.text] := by
  unfold remarks
  split
  · rfl
  · split <;> rfl

/-- Of branches it is only warned that they have no selections. -/
theorem Branch.remarks_empty (branch : Branch) (review : Option Review) :
    emptySelections (branch.remarks review) = [] := by
  unfold remarks
  split <;> rfl

theorem Plan.warnings_empty (p : Plan) : emptySelections p.issues.warnings =
    ((locate .top p.reviewed.selections).filter (!·.2.selectsAny)).map (·.1.text) := by
  have below : (p.branches.flatMap fun b => emptySelections (b.1.remarks b.2)) = [] :=
    List.flatMap_eq_nil_iff.mpr fun b _ => b.1.remarks_empty b.2
  rw [issues_warnings, remarks, emptySelections_append, emptySelections_flatMap, below,
    List.nil_append, emptySelections_flatMap]
  simp only [Selection.remarks_empty]
  induction locate .top p.reviewed.selections with
  | nil => rfl
  | cons x xs ih =>
      rw [List.flatMap_cons, List.filter_cons, ih]
      cases x.2.selectsAny <;> rfl

/-! Entries for selections. -/

theorem locate_narrow (scope : IdSet) (branch : Branch) (ss : List Selection) :
    locate branch (ss.map (·.narrow scope)) =
      (locate branch ss).map fun x => (x.1, x.2.narrow scope) := by
  simp only [locate, List.mapIdx_eq_zipIdx_map, List.zipIdx_map, List.map_map]
  rfl

theorem Plan.report_emptiedAtTop (scope : IdSet) (p : Plan) : (p.report scope).emptiedAtTop =
    ((locate .top p.reviewed.selections).filter fun x => !(x.2.narrow scope).selectsAny).map
      (·.1.text) := by
  have below : ((p.branches.map fun b => entriesAt scope b.1 (selectionsOf b.2)).flatten).filter
      (fun e => e.location.branch = .top ∧ e.included = []) = [] := by
    rw [List.filter_eq_nil_iff]
    intro e member
    obtain ⟨_, part, inside⟩ := List.mem_flatten.mp member
    obtain ⟨b, own, rfl⟩ := List.mem_map.mp part
    have here : e.location.branch ≠ .top := by
      rw [entriesAt_locations.at_branch inside]
      exact branch_ne_top own
    simp [here]
  have top : (entriesAt scope .top p.reviewed.selections).filter
      (fun e => e.location.branch = .top ∧ e.included = []) =
      (entriesAt scope .top p.reviewed.selections).filter (·.included.isEmpty) := by
    apply List.filter_congr
    intro e member
    simp only [entriesAt_locations.at_branch member, true_and]
    cases e.included <;> rfl
  rw [Report.emptiedAtTop, report_entriesAt, List.filter_append, below, List.nil_append, top,
    entriesAt, List.filter_map, List.map_map]
  congr 1
  exact List.filter_congr fun x _ => entryOf_included_isEmpty x

/-- What the validation of a tailored plan warns of at selections without controls, is what the
report says of the tailoring, whether the plan is valid or not. -/
theorem Plan.tailor_warnings_empty (scope : IdSet) (p : Plan) :
    emptySelections (p.tailor scope).issues.warnings = (p.report scope).emptiedAtTop := by
  have narrowed : locate .top (p.tailor scope).reviewed.selections =
      (locate .top p.reviewed.selections).map fun x => (x.1, x.2.narrow scope) :=
    locate_narrow scope .top p.reviewed.selections
  rw [warnings_empty, narrowed, List.filter_map, List.map_map, report_emptiedAtTop]
  rfl

/-- When a tailored plan is accepted, the warnings about selections without controls are, in order,
at the places at the top that the report left without controls. The report is what an observer of
the tailoring has collected from the start. -/
theorem warnings_agree {scope : Scope} {p : Plan} {issues : Issues}
    (accepted : (tailorPlan scope p).2.2 = .ok issues) :
    let report := ((p.walk .reporting scope.controls).run .blank).2
    (tailorPlan scope p).2.1.report = report ∧
    emptySelections issues.warnings = report.emptiedAtTop := by
  have told : ((p.walk .reporting scope.controls).run .blank).2 = p.report scope.controls := by
    rw [p.walk_tells, reporting_foldl_blank]
  have found : issues = (p.tailor scope.controls).issues := by
    have valid : (p.tailor scope.controls).Valid := Plan.valid_of_validate accepted
    exact Except.ok.inj (accepted.symm.trans valid.validate)
  intro report
  refine ⟨told.symm, ?_⟩
  rw [found, Plan.tailor_warnings_empty]
  exact congrArg Report.emptiedAtTop told.symm

/-- A selection that the scope leaves without controls, and one that had none before. -/
theorem warnings_agree_twoActivities :
    let scope := (ScopeConfig.mk "f" ["ac-3"]).scope
    let issues := (twoActivities.tailor scope.controls).issues
    let report := ((twoActivities.walk .reporting scope.controls).run .blank).2
    (tailorPlan scope twoActivities).2.2 = .ok issues ∧
    ((tailorPlan scope twoActivities).2.1.report = report ∧
      emptySelections issues.warnings = report.emptiedAtTop) ∧
    emptySelections issues.warnings =
      ["reviewed-controls/control-selections[0]", "reviewed-controls/control-selections[1]"] := by
  intro scope issues report
  have accepted : (tailorPlan scope twoActivities).2.2 = .ok issues := by
    have sound : issues.errors = [] := by decide +kernel
    exact (Plan.issues_errors_eq_nil.mp sound).validate
  exact ⟨accepted, warnings_agree accepted, by decide +kernel⟩

end AssessmentPlans
