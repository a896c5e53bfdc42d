import AssessmentPlans.Config.Basic
import AssessmentPlans.Pipeline
import AssessmentPlans.Proofs.Plan.Validity
import AssessmentPlans.Proofs.Scope.Composition

/-! Tailoring keeps a valid plan valid. What is selected afterwards was selected
before or comes from the scope, exceptions stay as they were, and a branch is marked
as skipped only when its review goes. -/
namespace AssessmentPlans

/-- No control of the set has a blank identifier. -/
def IdSet.Named (scope : IdSet) : Prop := ∀ id ∈ scope, ¬Text.Blank id

section Named

variable {scope : IdSet} (named : scope.Named)
include named

theorem Selection.NamesControls.narrow {s : Selection} (h : s.NamesControls) :
    (s.narrow scope).NamesControls := by
  intro c hc
  rw [Selection.narrow_includedRefs, Selection.narrow_excludedRefs] at hc
  rcases List.mem_append.mp hc with kept | excepted
  · exact named c.id (Selection.mem_of_mem_keptRefs kept)
  · exact h c (List.mem_append_right _ excepted)

theorem Review.FitsBranch.prune {props : Option (List Property)} {r : Review}
    (h : r.FitsBranch props) : (r.prune scope).FitsBranch props := by
  refine ⟨h.active, ?_, ?_⟩
  · intro s hs
    obtain ⟨old, member, rfl⟩ := List.mem_map.mp (List.mem_filter.mp hs).1
    exact (h.names old member).narrow named
  · intro s hs
    exact (List.mem_filter.mp hs).2

theorem tailorBranch_fits {review : Option Review} {props : Option (List Property)}
    (h : ∀ r, review = some r → r.FitsBranch props) :
    ∀ r, (tailorBranch scope review props).1 = some r →
      r.FitsBranch (tailorBranch scope review props).2 := by
  intro r hr
  cases review with
  | none => cases hr
  | some old =>
      cases gone : old.vanishes scope with
      | true =>
          simp only [tailorBranch, gone, if_true, reduceCtorEq] at hr
      | false =>
          simp only [tailorBranch, gone, Bool.false_eq_true, if_false, Option.some.injEq] at hr ⊢
          subst hr
          exact (h old rfl).prune named

theorem Step.Valid.tailor {s : Step} (h : s.Valid) : (s.tailor scope).Valid :=
  ⟨h.uuid, tailorBranch_fits named h.reviewed⟩

theorem Activity.Valid.tailor {a : Activity} (h : a.Valid) : (a.tailor scope).Valid := by
  refine ⟨h.uuid, tailorBranch_fits named h.related, ?_⟩
  intro s hs
  have steps : (a.tailor scope).stepList = a.stepList.map (·.tailor scope) := by
    unfold Activity.stepList Activity.tailor
    cases a.steps <;> rfl
  rw [steps] at hs
  obtain ⟨old, member, rfl⟩ := List.mem_map.mp hs
  exact (h.steps old member).tailor named

theorem Plan.Valid.tailor {p : Plan} (h : p.Valid) : (p.tailor scope).Valid := by
  refine ⟨h.uuid, h.title, ?_, ?_⟩
  · intro a ha
    rw [Plan.tailor_activities] at ha
    obtain ⟨old, member, rfl⟩ := List.mem_map.mp ha
    exact (h.activities old member).tailor named
  · intro s hs
    obtain ⟨old, member, rfl⟩ := List.mem_map.mp hs
    exact (h.names old member).narrow named

end Named

/-- A configuration that is accepted names its controls. -/
theorem ScopeConfig.scope_named {c : ScopeConfig} {expected : Option String}
    {warnings : List String} (accepted : c.validate expected = .ok warnings) :
    c.scope.controls.Named := by
  have sound : c.defects = [] := by
    unfold ScopeConfig.validate at accepted
    split at accepted
    · assumption
    · cases accepted
  have checked := (List.append_eq_nil_iff.mp sound).2
  intro id member blank
  obtain ⟨n, bound, rfl⟩ := List.mem_iff_getElem.mp (IdSet.mem_ofList.mp member)
  have defect : some (ConfigDefect.blankControl n) ∈ c.controls.mapIdx controlDefect? := by
    refine List.mem_mapIdx.mpr ⟨n, bound, ?_⟩
    rw [controlDefect?, if_pos blank]
  have found : ConfigDefect.blankControl n ∈ (c.controls.mapIdx controlDefect?).filterMap id :=
    List.mem_filterMap.mpr ⟨_, defect, rfl⟩
  rw [checked] at found
  exact List.not_mem_nil found

/-- A plan without errors that is tailored to an accepted configuration passes the
validation that follows, and has no errors. -/
theorem tailorPlan_succeeds (p : Plan) (sound : p.issues.errors = []) (c : ScopeConfig)
    (expected : Option String) (warnings : List String)
    (accepted : c.validate expected = .ok warnings) :
    (∃ issues, (tailorPlan c.scope p).2.2 = .ok issues) ∧ (tailorPlan c.scope p).1.issues.errors = [] := by
  have valid := (Plan.issues_errors_eq_nil.mp sound).tailor (ScopeConfig.scope_named accepted)
  exact ⟨⟨_, valid.validate⟩, Plan.issues_errors_eq_nil.mpr valid⟩

theorem tailorPlan_succeeds_twoActivities :
    twoActivities.issues.errors = [] ∧
      (ScopeConfig.mk "f" ["ac-2", "ac-1"]).validate (some "f") = .ok [] ∧
      (∃ issues, (tailorPlan (ScopeConfig.mk "f" ["ac-2", "ac-1"]).scope twoActivities).2.2 =
        .ok issues) ∧
      (tailorPlan (ScopeConfig.mk "f" ["ac-2", "ac-1"]).scope twoActivities).1.issues.errors = [] := by
  have sound : twoActivities.issues.errors = [] := by decide +kernel
  have accepted : (ScopeConfig.mk "f" ["ac-2", "ac-1"]).validate (some "f") = .ok [] := by
    decide +kernel
  exact ⟨sound, accepted, tailorPlan_succeeds twoActivities sound _ _ _ accepted⟩

end AssessmentPlans
