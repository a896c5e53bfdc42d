import AssessmentPlans.Proofs.Framework
import AssessmentPlans.Proofs.Plan.Contents
import AssessmentPlans.Proofs.Plan.Restriction

/-! Definitions that are given once more. Everything that is gathered from definitions keeps the
first of each item, so a second pass over what has been seen adds nothing and moves nothing. -/
namespace AssessmentPlans

def LocalDefinitions.anonymous (d : LocalDefinitions) : LocalDefinitions :=
  { d with activities := d.activities.map (·.map Activity.anonymous) }

/-- The plan but for its identifiers and its time. -/
def Plan.anonymous (p : Plan) : Plan :=
  { p with
    uuid := ""
    metadata := { p.metadata with lastModified := "" }
    definitions := p.definitions.map LocalDefinitions.anonymous }

theorem definitions_anonymous (activities : List Activity) :
    (if activities.isEmpty then none else some (LocalDefinitions.mk (some activities) [])).map
        LocalDefinitions.anonymous =
      if (activities.map Activity.anonymous).isEmpty then none
      else some ⟨some (activities.map Activity.anonymous), []⟩ := by
  cases activities <;> rfl

/-- Which identifiers are given out, and when, leaves no other trace in a plan. -/
theorem Plan.synthesize_anonymous (framework : String) (ds : List Definition)
    (ids ids' : Nat → String) (now now' : String) :
    (synthesize framework ds ids now).map Plan.anonymous =
      (synthesize framework ds ids' now').map Plan.anonymous := by
  have whole : (wholePlan framework ds ids now).anonymous =
      (wholePlan framework ds ids' now').anonymous := by
    simp only [wholePlan, Plan.anonymous, definitions_anonymous, ruleActivities_anonymous]
  rw [synthesize_eq, synthesize_eq]
  cases frameworkFault? framework ds with
  | none => exact congrArg Except.ok whole
  | some fault => rfl

section Repeated

variable {framework rule : String} {ds es : List Definition}

/-! What is gathered from more definitions. -/

theorem componentsOf_append : componentsOf (ds ++ es) = componentsOf ds ++ componentsOf es :=
  List.flatMap_append

theorem namedRequirements_append : namedRequirements framework (ds ++ es) =
    namedRequirements framework ds ++ namedRequirements framework es := by
  simp only [namedRequirements, requirementsFor, implementationsFor, componentsOf_append,
    List.flatMap_append, List.filter_append]

theorem titledImplementations_append : titledImplementations (ds ++ es) =
    titledImplementations ds ++ titledImplementations es := by
  rw [titledImplementations, componentsOf_append, List.flatMap_append]
  rfl

theorem flatMap_subset {α β : Type} {as bs : List α} (f : α → List β) (h : bs ⊆ as) :
    bs.flatMap f ⊆ as.flatMap f := by
  intro b member
  obtain ⟨a, listed, part⟩ := List.mem_flatMap.mp member
  exact List.mem_flatMap.mpr ⟨a, h listed, part⟩

/-- Groups of a rule that have been taken in already tell nothing new. -/
theorem foldl_add_append {groups more : List (List Property)} (known : more ⊆ groups) :
    (groups ++ more).foldl RuleEntry.add .blank = groups.foldl RuleEntry.add .blank := by
  have description : ((groups ++ more).foldl RuleEntry.add .blank).description =
      (groups.foldl RuleEntry.add .blank).description := by
    rw [foldl_add_description, foldl_add_description, List.filter_append, List.findSome?_append]
    cases told : (groups.filter (firstValue? "Check_Id" · = none)).findSome?
        (firstValue? "Rule_Description") with
    | some text => rfl
    | none =>
        -- what no group has told, none of the repeated ones tells
        have silent : (more.filter (firstValue? "Check_Id" · = none)).findSome?
            (firstValue? "Rule_Description") = none := by
          rw [List.findSome?_eq_none_iff] at told ⊢
          exact fun group member => told group (List.filter_subset _ known member)
        rw [silent]
        rfl
  have checks : ((groups ++ more).foldl RuleEntry.add .blank).checks =
      (groups.foldl RuleEntry.add .blank).checks := by
    rw [foldl_add_checks, foldl_add_checks, List.filterMap_append]
    exact distinctBy_append_of_known fun c member =>
      ⟨c, List.filterMap_subset groupCheck? known member, rfl⟩
  have parts : ∀ e e' : RuleEntry, e.description = e'.description → e.checks = e'.checks →
      e = e' := by
    rintro ⟨_, _⟩ ⟨_, _⟩ rfl rfl
    rfl
  exact parts _ _ description checks

/-! What is gathered from definitions that are all there already. -/

variable (known : es ⊆ ds)
include known

theorem componentsOf_subset : componentsOf es ⊆ componentsOf ds := flatMap_subset _ known

theorem namedRequirements_subset : namedRequirements framework es ⊆ namedRequirements framework ds :=
  List.filter_subset _ (flatMap_subset _
    (List.filter_subset _ (flatMap_subset _ (componentsOf_subset known))))

theorem controlsOf_repeated : controlsOf framework (ds ++ es) = controlsOf framework ds := by
  rw [controlsOf, namedRequirements_append, List.map_append]
  exact distinct_append_of_subset (List.map_subset _ (namedRequirements_subset known))

theorem collect_repeated : collect framework (ds ++ es) = collect framework ds := by
  have linked : linksOf framework (ds ++ es) = linksOf framework ds ++ linksOf framework es := by
    rw [linksOf, namedRequirements_append, List.flatMap_append]
    rfl
  have links : linksOf framework es ⊆ linksOf framework ds :=
    flatMap_subset _ (namedRequirements_subset known)
  have rules : rulesOf framework (ds ++ es) = rulesOf framework ds := by
    rw [rulesOf, linked, List.map_append]
    exact distinct_append_of_subset (List.map_subset _ links)
  have controls : ∀ rule,
      ruleControls framework (ds ++ es) rule = ruleControls framework ds rule := by
    intro rule
    rw [ruleControls, linked, List.filter_append, List.map_append]
    exact distinct_append_of_subset (List.map_subset _ (List.filter_subset _ links))
  simp only [collect_eq, controlsOf_repeated known, rules, controls]

theorem ruleEntry_repeated : ruleEntry (ds ++ es) rule = ruleEntry ds rule := by
  rw [ruleEntry_eq, ruleEntry_eq, componentsOf_append, List.flatMap_append, ofRule,
    List.filter_append]
  exact foldl_add_append (List.filter_subset _ (flatMap_subset _ (componentsOf_subset known)))

theorem frameworkFault?_repeated :
    frameworkFault? framework (ds ++ es) = frameworkFault? framework ds := by
  have none : (ds ++ es).isEmpty = ds.isEmpty := by
    cases ds with
    | nil => rw [List.eq_nil_of_subset_nil known, List.append_nil]
    | cons d ds => rfl
  have implemented : (implementationsFor framework (ds ++ es)).isEmpty =
      (implementationsFor framework ds).isEmpty := by
    have some : implementationsFor framework es ⊆ implementationsFor framework ds :=
      List.filter_subset _ (flatMap_subset _ (componentsOf_subset known))
    have whole : implementationsFor framework (ds ++ es) =
        implementationsFor framework ds ++ implementationsFor framework es := by
      simp only [implementationsFor, componentsOf_append, List.flatMap_append, List.filter_append]
    rw [whole]
    cases listed : implementationsFor framework ds with
    | nil =>
        rw [listed] at some
        rw [List.eq_nil_of_subset_nil some, List.append_nil]
    | cons i is => rfl
  rw [frameworkFault?, none, implemented]
  rfl

theorem frameworkEntry_repeated :
    frameworkEntry (titledImplementations (ds ++ es)) framework =
      frameworkEntry (titledImplementations ds) framework := by
  have components : (frameworkEntry (titledImplementations (ds ++ es)) framework).components =
      (frameworkEntry (titledImplementations ds) framework).components := by
    rw [frameworkEntry_components, frameworkEntry_components, componentsOf_append,
      List.filter_append, List.map_append]
    exact distinct_append_of_subset
      (List.map_subset _ (List.filter_subset _ (componentsOf_subset known)))
  have controls : (frameworkEntry (titledImplementations (ds ++ es)) framework).controls =
      (frameworkEntry (titledImplementations ds) framework).controls := by
    apply IdSet.ext_mem
    intro id
    have listed : titledImplementations es ⊆ titledImplementations ds :=
      flatMap_subset _ (componentsOf_subset known)
    rw [mem_frameworkEntry_controls, mem_frameworkEntry_controls, titledImplementations_append]
    constructor
    · rintro ⟨x, member, required⟩
      rcases List.mem_append.mp member with first | again
      · exact ⟨x, first, required⟩
      · exact ⟨x, listed again, required⟩
    · rintro ⟨x, member, required⟩
      exact ⟨x, List.mem_append_left _ member, required⟩
  have parts : ∀ e e' : FrameworkEntry, e.id = e'.id → e.controls = e'.controls →
      e.components = e'.components → e = e' := by
    rintro ⟨_, _, _⟩ ⟨_, _, _⟩ rfl rfl rfl
    rfl
  exact parts _ _ ((frameworkEntry_id _ _).trans (frameworkEntry_id _ _).symm) controls components

theorem availableFrameworks_repeated : availableFrameworks (ds ++ es) = availableFrameworks ds := by
  have ids : IdSet.ofList ((titledImplementations (ds ++ es)).map (·.2.frameworkId)) =
      IdSet.ofList ((titledImplementations ds).map (·.2.frameworkId)) := by
    apply IdSet.ext_mem
    intro id
    have listed := List.map_subset (fun x : String × Implementation => x.2.frameworkId)
      (flatMap_subset (fun c : Component => c.implementationList.map (c.title, ·))
        (componentsOf_subset known))
    rw [IdSet.mem_ofList, IdSet.mem_ofList, titledImplementations_append, List.map_append,
      List.mem_append]
    exact or_iff_left_of_imp fun again => listed again
  rw [availableFrameworks, availableFrameworks, frameworkEntries_eq, frameworkEntries_eq, ids]
  congr 1
  exact List.map_congr_left fun id _ => frameworkEntry_repeated known

end Repeated

/-- Definitions that are given once more change nothing: the plan for a framework is the same, or
fails in the same way, and so is the configuration with its controls and the list of frameworks.
The plans of two runs differ at most in the identifiers and the time that each is given. -/
theorem repeated_definitions (framework : String) {ds es : List Definition} (known : es ⊆ ds) :
    (∀ ids now, Plan.synthesize framework (ds ++ es) ids now =
      Plan.synthesize framework ds ids now) ∧
    (∀ ids ids' now now', (Plan.synthesize framework (ds ++ es) ids now).map Plan.anonymous =
      (Plan.synthesize framework ds ids' now').map Plan.anonymous) ∧
    ScopeConfig.template framework (ds ++ es) = ScopeConfig.template framework ds ∧
    availableFrameworks (ds ++ es) = availableFrameworks ds := by
  have planned : ∀ ids now, Plan.synthesize framework (ds ++ es) ids now =
      Plan.synthesize framework ds ids now :=
    Plan.synthesize_congr (frameworkFault?_repeated known) (collect_repeated known)
      fun rule => ruleEntry_repeated known
  refine ⟨planned, ?_, ?_, availableFrameworks_repeated known⟩
  · intro ids ids' now now'
    rw [planned]
    exact Plan.synthesize_anonymous framework ds ids ids' now now'
  · exact ScopeConfig.template_congr (frameworkFault?_repeated known) (controlsOf_repeated known)

/-- The validator before the host, and both once more. -/
theorem repeated_definitions_validated :
    validatedDefinitions.reverse ++ validatedDefinitions ⊆ validatedDefinitions ∧
    (∀ ids now,
      Plan.synthesize "cis"
          (validatedDefinitions ++ (validatedDefinitions.reverse ++ validatedDefinitions)) ids now =
        Plan.synthesize "cis" validatedDefinitions ids now) ∧
    (∀ ids ids' now now',
      (Plan.synthesize "cis"
          (validatedDefinitions ++ (validatedDefinitions.reverse ++ validatedDefinitions)) ids
          now).map Plan.anonymous =
        (Plan.synthesize "cis" validatedDefinitions ids' now').map Plan.anonymous) ∧
    ScopeConfig.template "cis"
        (validatedDefinitions ++ (validatedDefinitions.reverse ++ validatedDefinitions)) =
      ScopeConfig.template "cis" validatedDefinitions ∧
    availableFrameworks
        (validatedDefinitions ++ (validatedDefinitions.reverse ++ validatedDefinitions)) =
      availableFrameworks validatedDefinitions := by
  have known : validatedDefinitions.reverse ++ validatedDefinitions ⊆ validatedDefinitions := by
    intro d member
    rcases List.mem_append.mp member with turned | again
    · exact List.mem_reverse.mp turned
    · exact again
  exact ⟨known, repeated_definitions "cis" known⟩

end AssessmentPlans
