import AssessmentPlans.Proofs.Pipeline
import AssessmentPlans.Proofs.Plan.Rules

/-! What planning builds. A plan is described by what its definitions declare: its controls and
activities by the requirements of the framework, and its steps by the groups of all components. -/
namespace AssessmentPlans

/-- A step is for a check of a rule that assesses these controls. -/
structure Step.Realizes (groups : List (List Property)) (rule : String) (controls : List String)
    (check : String) (s : Step) : Prop where
  title : s.title = some check
  props : s.props = some [.plain "Check_Id" check]
  reviewed : s.reviewed = some (.ofIds controls)
  /-- The first group of the rule that declares the check describes it, or else its identifier. -/
  description : ∃ before group after, ofRule rule groups = before ++ group :: after ∧
    (∀ g ∈ before, firstValue? "Check_Id" g ≠ some check) ∧
    firstValue? "Check_Id" group = some check ∧
    s.description = (firstValue? "Check_Description" group).getD check

/-- An activity is for a rule that requirements name. -/
structure Activity.Realizes (required : List Requirement) (groups : List (List Property))
    (rule : String) (a : Activity) : Prop where
  title : a.title = some rule
  props : a.props = some [.plain "Rule_Id" rule]
  /-- The first description by a group of the rule without a check, or else its identifier. -/
  description : a.description =
    (((ofRule rule groups).filter (firstValue? "Check_Id" · = none)).findSome?
      (firstValue? "Rule_Description")).getD rule
  /-- It selects the controls whose requirements name the rule, and so do its steps, one for each
  check. -/
  contents : ∃ controls checks,
    FirstAppearances controls ((required.filter (rule ∈ ·.rules)).map (·.controlId)) ∧
    a.related = some (.ofIds controls) ∧
    FirstAppearances checks ((ofRule rule groups).filterMap (firstValue? "Check_Id")) ∧
    List.Forall₂ (Step.Realizes groups rule controls) checks a.stepList

/-- A plan that consists of what definitions declare for a framework. -/
structure Plan.Realizes (framework : String) (ds : List Definition) (p : Plan) : Prop where
  controls : ∃ controls, p.reviewed = .ofIds controls ∧
    FirstAppearances controls ((namedRequirements framework ds).map (·.controlId))
  /-- Activities assess no control but those of the plan. -/
  covered : ∀ a ∈ p.activities, ∀ r, a.related = some r → ∀ s ∈ r.selections,
    ∀ id ∈ s.includedIds, ∃ t ∈ p.reviewed.selections, id ∈ t.includedIds
  activities : ∃ groups rules, GroupsOf ds groups ∧
    FirstAppearances rules ((namedRequirements framework ds).flatMap (·.rules)) ∧
    List.Forall₂ (Activity.Realizes (namedRequirements framework ds) groups) rules p.activities

variable {framework rule now : String} {ds : List Definition} {controls : List String}
  {ids : Nat → String}

/-! Links, each once. -/

/-- However often a requirement names a rule, it links its control once. -/
theorem distinct_links (rule : String) (r : Requirement) :
    distinct ((r.links.filter (·.1 = rule)).map (·.2)) =
      distinct (if rule ∈ r.rules then [r.controlId] else []) := by
  have links : (r.links.filter (·.1 = rule)).map (·.2) =
      List.replicate (r.rules.count rule) r.controlId := by
    rw [Requirement.links, List.filter_map, List.map_map]
    simp [List.count_eq_length_filter, Function.comp_def, beq_eq_decide]
  rw [links]
  by_cases named : rule ∈ r.rules
  · obtain ⟨n, more⟩ := Nat.exists_eq_succ_of_ne_zero (List.count_pos_iff.mpr named).ne'
    rw [more, if_pos named, distinct_replicate]
    rfl
  · rw [List.count_eq_zero.mpr named, if_neg named]
    rfl

theorem rulesOf_eq (framework : String) (ds : List Definition) :
    rulesOf framework ds = distinct ((namedRequirements framework ds).flatMap (·.rules)) := by
  rw [rulesOf, linksOf, List.map_flatMap]
  congr 2
  funext r
  rw [Requirement.links, List.map_map]
  exact List.map_id _

theorem ruleControls_eq (framework : String) (ds : List Definition) (rule : String) :
    ruleControls framework ds rule =
      distinct (((namedRequirements framework ds).filter (rule ∈ ·.rules)).map (·.controlId)) := by
  rw [ruleControls, linksOf]
  induction namedRequirements framework ds with
  | nil => rfl
  | cons r rs ih =>
      rw [List.flatMap_cons, List.filter_append, List.map_append, List.filter_cons]
      refine (distinct_append_congr (distinct_links rule r) ih).trans ?_
      congr 1
      by_cases named : rule ∈ r.rules
      · rw [if_pos named, if_pos (decide_eq_true named)]
        rfl
      · rw [if_neg named, if_neg (mt of_decide_eq_true named)]
        rfl

/-! Activities and their steps. -/

theorem forall₂_mapIdx {α β γ : Type} {R : β → γ → Prop} {f : α → β} {g : Nat → α → γ} {as : List α}
    (h : ∀ a ∈ as, ∀ n, R (f a) (g n a)) : List.Forall₂ R (as.map f) (as.mapIdx g) := by
  induction as generalizing g with
  | nil => exact .nil
  | cons a as ih =>
      rw [List.map_cons, List.mapIdx_cons]
      apply List.Forall₂.cons (h a List.mem_cons_self 0)
      apply ih
      intro b member n
      exact h b (List.mem_cons_of_mem a member) (n + 1)

theorem Check.step_realizes {groups : List (List Property)} {c : Check} (uuid : String)
    (member : c ∈ ((ofRule rule groups).foldl RuleEntry.add .blank).checks) :
    Step.Realizes groups rule controls c.id (c.step uuid controls) := by
  obtain ⟨before, group, after, here, apart, first, told⟩ := mem_foldl_add_checks member
  refine ⟨rfl, rfl, rfl, before, group, after, here, apart, first, ?_⟩
  rw [told]
  rfl

theorem ruleActivity_realizes (ids : Nat → String) :
    Activity.Realizes (namedRequirements framework ds)
      ((componentsOf ds).flatMap Component.groups) rule
      (ruleActivity ds ids rule (ruleControls framework ds rule)) := by
  refine ⟨rfl, rfl, ?_, ruleControls framework ds rule, (checksOf ds rule).map (·.id), ?_, rfl,
    ?_, ?_⟩
  · show (ruleDescription? ds rule).getD rule = _
    rw [ruleDescription?, ruleEntry_eq, foldl_add_description]
    rfl
  · rw [ruleControls_eq]
    exact distinct_firstAppearances _
  · rw [checksOf, ruleEntry_eq, foldl_add_checkIds]
    exact distinct_firstAppearances _
  · rw [ruleActivity_stepList]
    apply forall₂_mapIdx
    intro c member n
    rw [checksOf, ruleEntry_eq] at member
    exact Check.step_realizes _ member

theorem ruleActivities_realizes (ids : Nat → String) (rules : List String) :
    List.Forall₂ (Activity.Realizes (namedRequirements framework ds)
        ((componentsOf ds).flatMap Component.groups)) rules
      (ruleActivities ds ids (rules.map fun rule => (rule, ruleControls framework ds rule))) := by
  induction rules generalizing ids with
  | nil => exact .nil
  | cons rule rules ih => exact .cons (ruleActivity_realizes ids) (ih _)

/-- Planning builds the plan for the framework and the definitions, whatever identifiers it
gives out. -/
theorem Plan.synthesize_realizes {p : Plan} (built : Plan.synthesize framework ds ids now = .ok p) :
    p.Realizes framework ds := by
  have implemented := exists_synthesize.mp ⟨p, built⟩
  rw [synthesize_eq_ok implemented] at built
  cases built
  refine ⟨⟨controlsOf framework ds, wholePlan_reviewed, distinct_firstAppearances _⟩, ?_,
    _, rulesOf framework ds, componentGroups_groupsOf ds, ?_, ?_⟩
  · intro a planned r related s selected id included
    rw [wholePlan_activities] at planned
    obtain ⟨rule, collected, _, _, rfl⟩ := mem_ruleActivities planned
    cases related
    cases List.mem_singleton.mp selected
    rw [wholePlan_reviewed]
    refine ⟨.ofIds (controlsOf framework ds), List.mem_singleton_self _, ?_⟩
    rw [Selection.includedIds_ofIds] at included ⊢
    exact (mem_collect_rules collected).2.2 id included
  · rw [rulesOf_eq]
    exact distinct_firstAppearances _
  · rw [wholePlan_activities, collect_eq]
    exact ruleActivities_realizes _ _

/-- The host with a validator that describes the rule, declares its check again and adds one. -/
def validatedDefinitions : List Definition :=
  let declared (key name value : String) : Property := ⟨name, value, none, some key, []⟩
  hostDefinitions ++ [⟨"7", ⟨"Validator", "", "", "", []⟩, some [
    { uuid := "8"
      kind := "validation"
      title := "Checks"
      description := ""
      props := some [
        declared "b" "Rule_Id" "login", declared "a" "Rule_Id" "login",
        declared "c" "Rule_Id" "login", declared "a" "Check_Id" "ssh",
        declared "a" "Check_Description" "too late", declared "c" "Rule_Description" "Logging in",
        declared "b" "Check_Id" "root", declared "b" "Check_Description" "No root"]
      implementations := none
      others := [] }], []⟩]

theorem Plan.synthesize_realizes_validated : ∃ p,
    Plan.synthesize "cis" validatedDefinitions (fun _ => "a") "today" = .ok p ∧
      p.Realizes "cis" validatedDefinitions := by
  have targets : hostImplementation.frameworkId == "cis" := by decide +kernel
  have implemented : hostImplementation ∈ implementationsFor "cis" validatedDefinitions :=
    List.mem_filter.mpr ⟨List.mem_singleton.mpr rfl, targets⟩
  have built : Plan.synthesize "cis" validatedDefinitions (fun _ => "a") "today" =
      .ok (wholePlan "cis" validatedDefinitions (fun _ => "a") "today") :=
    synthesize_eq_ok ⟨hostImplementation, implemented⟩
  exact ⟨_, built, synthesize_realizes built⟩

end AssessmentPlans
