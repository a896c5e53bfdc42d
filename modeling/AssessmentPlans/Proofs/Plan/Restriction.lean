import AssessmentPlans.Proofs.Definition.Requirement
import AssessmentPlans.Proofs.Scope.Rules

/-! Leaving requirements out. To tailor the plan for a framework is to plan from definitions
that require nothing but the controls in scope. -/
namespace AssessmentPlans

variable {scope : IdSet} {framework rule control : String} {ds : List Definition}

/-! Definitions without the requirements that name controls out of scope. -/

def Implementation.restrict (scope : IdSet) (i : Implementation) : Implementation :=
  { i with requirements := i.requirements.filter (·.controlId ∈ scope) }

def Component.restrict (scope : IdSet) (c : Component) : Component :=
  { c with implementations := c.implementations.map (·.map (·.restrict scope)) }

def Definition.restrict (scope : IdSet) (d : Definition) : Definition :=
  { d with components := d.components.map (·.map (·.restrict scope)) }

def restrictAll (scope : IdSet) (ds : List Definition) : List Definition :=
  ds.map (·.restrict scope)

/-- Restricting is one way to give implementations their requirements anew. -/
theorem restrictAll_eq : restrictAll scope ds =
    requireAll (fun i => i.requirements.filter (·.controlId ∈ scope)) ds := rfl

theorem implementationsFor_restrict : implementationsFor framework (restrictAll scope ds) =
    (implementationsFor framework ds).map (·.restrict scope) := implementationsFor_require

theorem namedRequirements_restrict : namedRequirements framework (restrictAll scope ds) =
    (namedRequirements framework ds).filter (·.controlId ∈ scope) := by
  simp only [namedRequirements, requirementsFor, implementationsFor_restrict, List.flatMap_map,
    Implementation.restrict, ← List.filter_flatMap, List.filter_filter, Bool.and_comm]

theorem controlsOf_restrict : controlsOf framework (restrictAll scope ds) =
    scope.within (controlsOf framework ds) := by
  rw [controlsOf, controlsOf, IdSet.within, distinct_filter, List.filter_map,
    namedRequirements_restrict]
  rfl

theorem linksOf_restrict : linksOf framework (restrictAll scope ds) =
    (linksOf framework ds).filter (·.2 ∈ scope) := by
  rw [linksOf, linksOf, namedRequirements_restrict]
  induction namedRequirements framework ds with
  | nil => rfl
  | cons r rs ih =>
      rw [List.flatMap_cons, List.filter_append, ← ih, List.filter_cons]
      by_cases inside : r.controlId ∈ scope
      · have all : r.links.filter (·.2 ∈ scope) = r.links := by
          simp [Requirement.links, List.filter_map, Function.comp_def, inside]
        rw [all, if_pos (decide_eq_true inside), List.flatMap_cons]
      · have none : r.links.filter (·.2 ∈ scope) = [] := by
          simp [Requirement.links, List.filter_map, Function.comp_def, inside]
        rw [none, if_neg (mt of_decide_eq_true inside), List.nil_append]

theorem ruleControls_restrict : ruleControls framework (restrictAll scope ds) rule =
    scope.within (ruleControls framework ds rule) := by
  simp only [ruleControls, IdSet.within, distinct_filter, List.filter_map, linksOf_restrict,
    List.filter_filter, Bool.and_comm, Function.comp_def]

/-- Rules stay if they assess a control in scope; which one comes first may change. -/
theorem rulesOf_restrict : (rulesOf framework (restrictAll scope ds)).Perm ((rulesOf framework ds).filter
    fun rule => scope.within (ruleControls framework ds rule) ≠ []) := by
  have nodup : ∀ ds, (rulesOf framework ds).Nodup := fun _ => distinct_nodup _
  refine (List.perm_ext_iff_of_nodup (nodup _) ((nodup ds).filter _)).mpr fun rule => ?_
  have stays : scope.within (ruleControls framework ds rule) ≠ [] ↔
      ∃ control, (rule, control) ∈ linksOf framework ds ∧ control ∈ scope := by
    simp only [IdSet.within_ne_nil, mem_ruleControls]
  rw [List.mem_filter, decide_eq_true_iff, stays, mem_rulesOf, mem_rulesOf, linksOf_restrict]
  simp only [List.mem_filter, decide_eq_true_iff]
  exact ⟨fun ⟨control, link, inside⟩ => ⟨⟨control, link⟩, control, link, inside⟩, And.right⟩

theorem ruleActivity_restrict (ids : Nat → String) (controls : List String) :
    ruleActivity (restrictAll scope ds) ids rule controls = ruleActivity ds ids rule controls := by
  rw [restrictAll_eq, ruleActivity_congr fun _ => ruleEntry_require]

/-! Activities but for their identifiers. -/

def Step.anonymous (s : Step) : Step := { s with uuid := "" }

def Activity.anonymous (a : Activity) : Activity :=
  { a with uuid := "", steps := a.steps.map (·.map Step.anonymous) }

theorem ruleActivity_anonymous (ids : Nat → String) (controls : List String) :
    (ruleActivity ds ids rule controls).anonymous = ruleActivity ds (fun _ => "") rule controls := by
  simp only [Activity.anonymous, ruleActivity]
  rw [ruleSteps_map (fun _ _ => rfl)]

theorem ruleActivities_anonymous (ids : Nat → String) (rules : List (String × List String)) :
    (ruleActivities ds ids rules).map Activity.anonymous =
      rules.map fun r => ruleActivity ds (fun _ => "") r.1 r.2 := by
  induction rules generalizing ids with
  | nil => rfl
  | cons r rules ih =>
      rw [ruleActivities, List.map_cons, List.map_cons, ih, ruleActivity_anonymous]

/-- Whether an activity is in use. -/
def Activity.active (a : Activity) : Bool := !Property.isSkipped a.props

theorem ruleActivities_tailor (ids : Nat → String) (rules : List (String × List String))
    (nodup : ∀ r ∈ rules, r.2.Nodup) :
    (((ruleActivities ds ids rules).map (·.tailor scope)).filter Activity.active).map
        Activity.anonymous =
      (rules.filter fun r => scope.within r.2 ≠ []).map fun r =>
        ruleActivity ds (fun _ => "") r.1 (scope.within r.2) := by
  induction rules generalizing ids with
  | nil => rfl
  | cons r rules ih =>
      obtain ⟨own, others⟩ := List.forall_mem_cons.mp nodup
      rw [ruleActivities, List.map_cons, List.filter_cons, List.filter_cons]
      by_cases none : scope.within r.2 = []
      · have gone : ((ruleActivity ds ids r.1 r.2).tailor scope).active = false := by
          rw [Activity.active, ruleActivity_tailor_skipped own none]
          rfl
        rw [gone, if_neg Bool.false_ne_true, if_neg (by simp [none]), ih _ others]
      · have stays : ((ruleActivity ds ids r.1 r.2).tailor scope).active = true := by
          rw [ruleActivity_tailor own none, Activity.active, ruleActivity_active]
          rfl
        rw [stays, if_pos rfl, if_pos (decide_eq_true none), List.map_cons, List.map_cons,
          ruleActivity_tailor own none, ruleActivity_anonymous, ih _ others]

/-- To tailor the plan for a framework, or to plan from definitions without the requirements
that name controls out of scope, comes to the same: the same selection at the top, and, but for
their order and their identifiers, the same activities in use. -/
theorem tailor_synthesize (framework : String) (ds : List Definition) (scope : IdSet)
    (ids ids' : Nat → String) (now now' : String)
    (some : ∃ i ∈ implementationsFor framework ds, ∃ r ∈ i.requirements,
      r.controlId ≠ "" ∧ r.controlId ∈ scope) :
    ∃ p q, Plan.synthesize framework ds ids now = .ok p ∧
      Plan.synthesize framework (restrictAll scope ds) ids' now' = .ok q ∧
      (p.tailor scope).reviewed = q.reviewed ∧
      (((p.tailor scope).activities.filter Activity.active).map Activity.anonymous).Perm
        (q.activities.map Activity.anonymous) := by
  obtain ⟨i, implemented, r, required, named, inside⟩ := some
  have kept : scope.within (controlsOf framework ds) ≠ [] := by
    refine IdSet.within_ne_nil.mpr ⟨r.controlId, mem_controlsOf.mpr ⟨r, ?_, rfl⟩, inside⟩
    exact mem_namedRequirements.mpr ⟨i, implemented, required, named⟩
  have implemented' : ∃ i, i ∈ implementationsFor framework (restrictAll scope ds) :=
    ⟨i.restrict scope, implementationsFor_restrict ▸ List.mem_map_of_mem implemented⟩
  refine ⟨_, _, Plan.synthesize_eq_ok ⟨i, implemented⟩, Plan.synthesize_eq_ok implemented', ?_, ?_⟩
  · rw [wholePlan_reviewed, controlsOf_restrict]
    show (wholePlan framework ds ids now).reviewed.narrow scope = _
    rw [wholePlan_reviewed]
    exact Review.narrow_ofIds (controlsOf_nodup _ _) kept
  · rw [Plan.tailor_activities, wholePlan_activities, wholePlan_activities,
      ruleActivities_tailor _ _ fun r member => (mem_collect_rules member).1,
      ruleActivities_anonymous, collect_eq, collect_eq]
    have here : ∀ rule, ruleActivity (restrictAll scope ds) (fun _ => "") rule
        (ruleControls framework (restrictAll scope ds) rule) =
          ruleActivity ds (fun _ => "") rule (scope.within (ruleControls framework ds rule)) :=
      fun rule => by rw [ruleActivity_restrict, ruleControls_restrict]
    simp only [List.filter_map, List.map_map, Function.comp_def, here]
    exact rulesOf_restrict.symm.map _

theorem tailor_synthesize_host :
    (∃ i ∈ implementationsFor "cis" hostDefinitions, ∃ r ∈ i.requirements,
      r.controlId ≠ "" ∧ r.controlId ∈ IdSet.ofList ["ac-3", "ac-2"]) ∧
      ∃ p q, Plan.synthesize "cis" hostDefinitions (fun _ => "a") "yesterday" = .ok p ∧
        Plan.synthesize "cis" (restrictAll (.ofList ["ac-3", "ac-2"]) hostDefinitions)
          (fun _ => "b") "today" = .ok q ∧
        (p.tailor (.ofList ["ac-3", "ac-2"])).reviewed = q.reviewed ∧
        (((p.tailor (.ofList ["ac-3", "ac-2"])).activities.filter Activity.active).map
          Activity.anonymous).Perm (q.activities.map Activity.anonymous) := by
  have some : ∃ i ∈ implementationsFor "cis" hostDefinitions, ∃ r ∈ i.requirements,
      r.controlId ≠ "" ∧ r.controlId ∈ IdSet.ofList ["ac-3", "ac-2"] :=
    ⟨hostImplementation, hostImplementation_mem, _, List.mem_cons_of_mem _ List.mem_cons_self,
      by decide, by decide +kernel⟩
  exact ⟨some, tailor_synthesize "cis" hostDefinitions _ _ _ _ _ some⟩

/-- The order may change indeed. -/
example : rulesOf "cis" hostDefinitions = ["login", "hashing"] ∧
    rulesOf "cis" (restrictAll (.ofList ["ac-3", "ac-2"]) hostDefinitions) = ["hashing", "login"] := by
  decide +kernel

end AssessmentPlans
