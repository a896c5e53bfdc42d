import AssessmentPlans.Plan.Synthesis
import AssessmentPlans.Proofs.Scope.Composition

/-! What tailoring does to the activity of a rule. Its steps assess the same controls as the
activity itself, so either all of them stay, with the controls in scope, or all are skipped. -/
namespace AssessmentPlans

variable {scope : IdSet} {controls : List String} {ds : List Definition} {ids : Nat → String}
  {rule : String}

/-- The controls of a list that are in scope. -/
def IdSet.within (scope : IdSet) (controls : List String) : List String :=
  controls.filter (· ∈ scope)

theorem IdSet.mem_within {control : String} :
    control ∈ scope.within controls ↔ control ∈ controls ∧ control ∈ scope := by
  rw [within, List.mem_filter, decide_eq_true_iff]

theorem IdSet.within_ne_nil :
    scope.within controls ≠ [] ↔ ∃ control ∈ controls, control ∈ scope := by
  simp only [← mem_within]
  exact ⟨List.exists_mem_of_ne_nil _, fun ⟨_, member⟩ => List.ne_nil_of_mem member⟩

section Listed

variable (nodup : controls.Nodup)
include nodup

theorem Selection.keptRefs_ofIds :
    (Selection.ofIds controls).keptRefs scope = (scope.within controls).map ControlRef.whole := by
  have chosen : ((controls.map ControlRef.whole).filter fun c => c.id ∈ scope) =
      (scope.within controls).map ControlRef.whole := List.filter_map
  show distinctBy _ ((controls.map ControlRef.whole).filter fun c => c.id ∈ scope) = _
  rw [chosen, distinctBy_eq_self]
  rw [List.pairwise_map]
  exact nodup.filter _

theorem Selection.narrow_ofIds (kept : scope.within controls ≠ []) :
    (Selection.ofIds controls).narrow scope = .ofIds (scope.within controls) := by
  have filled : ((scope.within controls).map ControlRef.whole).isEmpty = false :=
    List.isEmpty_eq_false_iff.mpr (mt List.map_eq_nil_iff.mp kept)
  rw [narrow, keptRefs_ofIds nodup, filled]
  rfl

theorem Review.narrow_ofIds (kept : scope.within controls ≠ []) :
    (Review.ofIds controls).narrow scope = .ofIds (scope.within controls) := by
  simp only [Review.narrow, Review.ofIds, List.map_singleton, Selection.narrow_ofIds nodup kept]

theorem Review.surviving_ofIds : (Review.ofIds controls).surviving scope =
    if scope.within controls = [] then [] else [.ofIds (scope.within controls)] := by
  have selects : ((Selection.ofIds controls).narrow scope).selectsAny =
      !(scope.within controls).isEmpty := by
    rw [Selection.narrow_selectsAny, Selection.keptRefs_ofIds nodup, List.isEmpty_map]
  rw [surviving, ofIds, List.map_singleton, List.filter_singleton, selects]
  cases none : scope.within controls with
  | nil => rfl
  | cons c cs =>
      have kept : scope.within controls ≠ [] := none ▸ List.cons_ne_nil c cs
      rw [Selection.narrow_ofIds nodup kept, none]
      rfl

/-- A branch that lists controls in scope lists just those. -/
theorem tailorBranch_ofIds (kept : scope.within controls ≠ []) (props : Option (List Property)) :
    tailorBranch scope (some (.ofIds controls)) props =
      (some (.ofIds (scope.within controls)), props) := by
  have stays : (Review.ofIds controls).surviving scope = [.ofIds (scope.within controls)] := by
    rw [Review.surviving_ofIds nodup, if_neg kept]
  simp only [tailorBranch, Review.vanishes, Review.prune, stays, List.isEmpty_cons, Bool.and_false,
    Bool.false_eq_true, if_false]
  rfl

theorem tailorBranch_ofIds_skipped (none : scope.within controls = [])
    (props : Option (List Property)) :
    tailorBranch scope (some (.ofIds controls)) props = (.none, Property.markSkipped props) := by
  have gone : (Review.ofIds controls).surviving scope = [] := by
    rw [Review.surviving_ofIds nodup, if_pos none]
  have vanishes : (Review.ofIds controls).vanishes scope = true := by
    rw [Review.vanishes, gone]
    rfl
  rw [tailorBranch, if_pos vanishes]

end Listed

theorem Property.isSkipped_markSkipped (props : Option (List Property)) :
    isSkipped (markSkipped props) = true := by
  have found : ∀ ps : List Property,
      has skipped (some toolNamespace) "true" (some (setMarker ps)) = true := by
    intro ps
    induction ps with
    | nil => rfl
    | cons p ps ih =>
        unfold has find? at ih ⊢
        by_cases marker : p.isNamed skipped (some toolNamespace) = true
        · rw [setMarker, if_pos marker, Option.getD_some, List.find?_cons_of_pos]
          · rfl
          · exact marker
        · rw [setMarker, if_neg marker, Option.getD_some, List.find?_cons_of_neg marker]
          exact ih
  exact found _

theorem Property.isSkipped_plain (name value : String) :
    isSkipped (some [.plain name value]) = false := by
  have other : isNamed skipped (some toolNamespace) (.plain name value) = false := Bool.and_false _
  rw [isSkipped, has, find?, Option.getD_some, List.find?_cons, other]
  rfl

theorem ruleActivity_active :
    Property.isSkipped (ruleActivity ds ids rule controls).props = false :=
  Property.isSkipped_plain _ _

/-- What is done to every step of a rule alike. -/
theorem ruleSteps_map {f : Step → Step} {rename : String → String} {controls' : List String}
    (same : ∀ uuid c, f (Check.step uuid controls c) = Check.step (rename uuid) controls' c) :
    (ruleSteps ds ids rule controls).map (·.map f) =
      ruleSteps ds (fun n => rename (ids n)) rule controls' := by
  have mapped : ((checksOf ds rule).mapIdx fun n c => c.step (ids n) controls).map f =
      (checksOf ds rule).mapIdx fun n c => c.step (rename (ids n)) controls' := by
    rw [List.mapIdx_eq_zipIdx_map, List.mapIdx_eq_zipIdx_map, List.map_map]
    exact List.map_congr_left fun x _ => same (ids x.2) x.1
  rw [ruleSteps, ruleSteps, ← mapped]
  cases (checksOf ds rule).mapIdx fun n c => c.step (ids n) controls <;> rfl

section Rule

variable (nodup : controls.Nodup)
include nodup

theorem Check.step_tailor (kept : scope.within controls ≠ []) (uuid : String) (c : Check) :
    (c.step uuid controls).tailor scope = c.step uuid (scope.within controls) := by
  simp only [Step.tailor, Check.step, tailorBranch_ofIds nodup kept]

/-- A rule with a control in scope is as if it assessed nothing else. -/
theorem ruleActivity_tailor (kept : scope.within controls ≠ []) :
    (ruleActivity ds ids rule controls).tailor scope =
      ruleActivity ds ids rule (scope.within controls) := by
  simp only [Activity.tailor, ruleActivity, tailorBranch_ofIds nodup kept]
  rw [ruleSteps_map fun uuid c => Check.step_tailor nodup kept uuid c]

/-- A rule without is skipped. -/
theorem ruleActivity_tailor_skipped (none : scope.within controls = []) :
    Property.isSkipped ((ruleActivity ds ids rule controls).tailor scope).props = true := by
  simp only [Activity.tailor, ruleActivity, tailorBranch_ofIds_skipped nodup none]
  exact Property.isSkipped_markSkipped _

end Rule

end AssessmentPlans
