import AssessmentPlans.Plan.Validity

/-! The structural rules, said of the plan itself: what `Plan.findings` looks for. A
plan is valid exactly when there is no error among its findings. -/
namespace AssessmentPlans

/-- Every control that a selection names, included or excepted, has an identifier. -/
def Selection.NamesControls (s : Selection) : Prop :=
  ∀ c ∈ s.includedRefs ++ s.excludedRefs, ¬Text.Blank c.id

/-- The rules for the review of a branch, under the properties of its owner. -/
structure Review.FitsBranch (props : Option (List Property)) (r : Review) : Prop where
  active : Property.isSkipped props = false
  names : ∀ s ∈ r.selections, s.NamesControls
  selects : ∀ s ∈ r.selections, s.selectsAny = true

structure Step.Valid (s : Step) : Prop where
  uuid : Uuid.isValid s.uuid = true
  reviewed : ∀ r, s.reviewed = some r → r.FitsBranch s.props

structure Activity.Valid (a : Activity) : Prop where
  uuid : Uuid.isValid a.uuid = true
  related : ∀ r, a.related = some r → r.FitsBranch a.props
  steps : ∀ s ∈ a.stepList, s.Valid

structure Plan.Valid (p : Plan) : Prop where
  uuid : Uuid.isValid p.uuid = true
  title : ¬Text.Blank p.metadata.title
  activities : ∀ a ∈ p.activities, a.Valid
  names : ∀ s ∈ p.reviewed.selections, s.NamesControls

/-- No finding is an error. -/
def Harmless (fs : List Finding) : Prop := ∀ f ∈ fs, f.severity ≠ .error

theorem harmless_append {fs gs : List Finding} :
    Harmless (fs ++ gs) ↔ Harmless fs ∧ Harmless gs := List.forall_mem_append

theorem harmless_nil : Harmless [] := fun _ h => absurd h List.not_mem_nil

theorem harmless_singleton {f : Finding} : Harmless [f] ↔ f.severity ≠ .error :=
  List.forall_mem_singleton

/-- A finding that is there under a condition. -/
theorem harmless_ite {c : Prop} [Decidable c] {f : Finding} :
    Harmless (if c then [f] else []) ↔ (f.severity = .error → ¬c) := by
  split
  · next holds =>
      refine harmless_singleton.trans (imp_congr_right fun _ => ?_)
      exact iff_of_false id (not_not_intro holds)
  · next fails => exact iff_of_true harmless_nil fun _ => fails

theorem harmless_flatMap {α : Type} {xs : List α} {find : α → List Finding} :
    Harmless (xs.flatMap find) ↔ ∀ x ∈ xs, Harmless (find x) := by
  constructor
  · intro h x hx f hf
    exact h f (List.mem_flatMap.mpr ⟨x, hx, hf⟩)
  · intro h f hf
    obtain ⟨x, hx, hf⟩ := List.mem_flatMap.mp hf
    exact h x hx f hf

theorem issuesOf_append (severity : Severity) (fs gs : List Finding) :
    issuesOf severity (fs ++ gs) = issuesOf severity fs ++ issuesOf severity gs := by
  rw [issuesOf, List.filter_append, List.map_append, issuesOf, issuesOf]

theorem issuesOf_error_eq_nil {fs : List Finding} : issuesOf .error fs = [] ↔ Harmless fs := by
  simp only [issuesOf, List.map_eq_nil_iff, List.filter_eq_nil_iff, decide_eq_true_eq]
  rfl

theorem uuidFindings_harmless {place : Place} {uuid : String} :
    Harmless (uuidFindings place uuid) ↔ Uuid.isValid uuid = true := by
  unfold uuidFindings
  split
  · next valid => exact iff_of_true harmless_nil valid
  · next invalid => exact iff_of_false (fun h => harmless_singleton.mp h rfl) invalid

theorem Selection.unnamed_harmless {location : Location} {s : Selection} :
    Harmless (((s.includedRefs ++ s.excludedRefs).filter fun c => Text.Blank c.id).map
      fun _ => ⟨.error, .selection location, .blankControl⟩) ↔ s.NamesControls := by
  simp only [Harmless, List.forall_mem_map, List.mem_filter, decide_eq_true_eq, ne_eq,
    not_true_eq_false, imp_false, not_and]
  rfl

theorem Selection.findings_harmless {location : Location} {s : Selection} :
    Harmless (s.findings location) ↔
      s.NamesControls ∧ (location.branch ≠ .top → s.selectsAny = true) := by
  rw [Selection.findings, harmless_append, unnamed_harmless]
  refine and_congr_right fun _ => ?_
  by_cases any : s.selectsAny = true
  · simp only [any, if_true, implies_true, iff_true]
    exact harmless_nil
  · by_cases top : location.branch = .top
    · simp only [any, top, if_true, Bool.false_eq_true, if_false, ne_eq, not_true_eq_false,
        false_implies, iff_true, harmless_append, harmless_singleton]
      refine ⟨?_, by decide⟩
      split
      · exact harmless_nil
      · exact harmless_singleton.mpr nofun
    · refine iff_of_false ?_ fun h => any (h top)
      rw [if_neg any, harmless_append, harmless_singleton, if_neg top]
      exact fun h => h.2 rfl

theorem selectionFindings_harmless {branch : Branch} {ss : List Selection} :
    Harmless (selectionFindings branch ss) ↔
      ∀ s ∈ ss, s.NamesControls ∧ (branch ≠ .top → s.selectsAny = true) := by
  simp only [Harmless, selectionFindings, List.mem_flatten, List.mem_mapIdx]
  constructor
  · intro h s hs
    obtain ⟨n, bound, rfl⟩ := List.mem_iff_getElem.mp hs
    have own : Harmless (ss[n].findings ⟨branch, n⟩) :=
      fun f hf => h f ⟨_, ⟨n, bound, rfl⟩, hf⟩
    exact Selection.findings_harmless.mp own
  · rintro h f ⟨_, ⟨n, bound, rfl⟩, hf⟩
    exact Selection.findings_harmless.mpr (h _ (List.getElem_mem bound)) f hf

theorem branchFindings_harmless {branch : Branch} (inner : branch ≠ .top)
    {props : Option (List Property)} {review : Option Review} :
    Harmless (branchFindings branch (Property.isSkipped props) review) ↔
      ∀ r, review = some r → r.FitsBranch props := by
  cases review with
  | none =>
      refine iff_of_true harmless_nil ?_
      intro r absent
      cases absent
  | some r =>
      simp only [branchFindings, harmless_append, harmless_ite, reduceCtorEq, false_implies,
        true_implies, and_true, Bool.not_eq_true, selectionFindings_harmless, Option.some.injEq,
        forall_eq']
      constructor
      · rintro ⟨live, each⟩
        exact ⟨live, fun s hs => (each s hs).1, fun s hs => (each s hs).2 inner⟩
      · intro fits
        exact ⟨fits.active, fun s hs => ⟨fits.names s hs, fun _ => fits.selects s hs⟩⟩

theorem Step.findings_harmless {owner : String} {s : Step} :
    Harmless (s.findings owner) ↔ s.Valid := by
  rw [Step.findings, harmless_append, uuidFindings_harmless,
    branchFindings_harmless Branch.noConfusion]
  exact ⟨fun h => ⟨h.1, h.2⟩, fun h => ⟨h.uuid, h.reviewed⟩⟩

theorem Activity.findings_harmless {a : Activity} : Harmless a.findings ↔ a.Valid := by
  rw [Activity.findings, harmless_append, harmless_append, uuidFindings_harmless,
    branchFindings_harmless Branch.noConfusion, harmless_flatMap]
  simp only [Step.findings_harmless]
  exact ⟨fun h => ⟨h.1.1, h.1.2, h.2⟩, fun h => ⟨⟨h.uuid, h.related⟩, h.steps⟩⟩

/-- The findings of a plan hold no error exactly when the plan follows the rules. -/
theorem Plan.findings_harmless {p : Plan} : Harmless p.findings ↔ p.Valid := by
  rw [Plan.findings, harmless_append, harmless_append, harmless_append, uuidFindings_harmless,
    harmless_ite, harmless_flatMap, selectionFindings_harmless]
  simp only [Activity.findings_harmless, true_implies, ne_eq, not_true_eq_false, false_implies,
    and_true]
  exact ⟨fun h => ⟨h.1.1.1, h.1.1.2, h.1.2, h.2⟩,
    fun h => ⟨⟨⟨h.uuid, h.title⟩, h.activities⟩, h.names⟩⟩

theorem Plan.issues_errors_eq_nil {p : Plan} : p.issues.errors = [] ↔ p.Valid :=
  issuesOf_error_eq_nil.trans Plan.findings_harmless

theorem Issues.verdict_eq_ok {is : Issues} : is.verdict = .ok () ↔ is.errors = [] := by
  unfold Issues.verdict
  split
  · next none => exact iff_of_true rfl none
  · next some => simp only [reduceCtorEq, some]

theorem Plan.Valid.validate {p : Plan} (h : p.Valid) : p.validate = .ok p.issues := by
  rw [Plan.validate, Issues.verdict_eq_ok.mpr (issues_errors_eq_nil.mpr h)]
  rfl

theorem Plan.valid_of_validate {p : Plan} {is : Issues} (h : p.validate = .ok is) : p.Valid := by
  refine issues_errors_eq_nil.mp (Issues.verdict_eq_ok.mp ?_)
  unfold Plan.validate at h
  cases verdict : p.issues.verdict with
  | ok u => rfl
  | error fault =>
      rw [verdict] at h
      cases h

end AssessmentPlans
