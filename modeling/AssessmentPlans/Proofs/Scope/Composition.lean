import AssessmentPlans.Config.Basic
import AssessmentPlans.Proofs.Scope.Narrowing
import AssessmentPlans.Scope.Tailoring

/-! Tailoring in turn. A selection that the common scope empties may be emptied by
the first scope, by the second, or by both together only; a branch that goes is
marked once in each case, since a branch without a review is never looked at. -/
namespace AssessmentPlans

theorem Plan.tailor_activities (scope : IdSet) (p : Plan) :
    (p.tailor scope).activities = p.activities.map (·.tailor scope) := by
  unfold Plan.tailor Plan.activities
  cases p.definitions with
  | none => rfl
  | some d =>
      cases activities : d.activities <;> simp [activities]

section Common

variable {a b c : IdSet} (h : ∀ id, id ∈ c ↔ id ∈ a ∧ id ∈ b)
include h

theorem Selection.selectsAny_of_narrow {s : Selection} (kept : (s.narrow c).selectsAny = true) :
    (s.narrow a).selectsAny = true := by
  rw [Selection.narrow_selectsAny] at kept ⊢
  rw [← Selection.keptRefs_filter h] at kept
  cases empty : s.keptRefs a with
  | nil => simp [empty] at kept
  | cons r rs => rfl

theorem Review.surviving_prune (r : Review) : (r.prune a).surviving b = r.surviving c := by
  unfold Review.prune Review.surviving
  induction r.selections with
  | nil => rfl
  | cons s ss ih =>
      by_cases kept : (s.narrow a).selectsAny = true
      · simp only [List.map_cons, List.filter_cons, kept, if_true, Selection.narrow_narrow h, ih]
      · have gone : ¬(s.narrow c).selectsAny = true :=
          fun selects => kept (Selection.selectsAny_of_narrow h selects)
        simp only [List.map_cons, List.filter_cons, kept, gone, Bool.false_eq_true, if_false]
        exact ih

theorem Review.prune_prune (r : Review) : (r.prune a).prune b = r.prune c := by
  have same := r.surviving_prune h
  unfold Review.prune at same ⊢
  rw [same]

/-- A review that goes under one scope goes under every smaller one. -/
theorem Review.vanishes_of_vanishes {r : Review} (gone : r.vanishes a = true) :
    r.vanishes c = true := by
  simp only [Review.vanishes, Bool.and_eq_true] at gone ⊢
  have none : r.surviving a = [] := List.isEmpty_iff.mp gone.2
  refine ⟨gone.1, ?_⟩
  rw [← r.surviving_prune h]
  simp only [Review.surviving, Review.prune]
  simp only [Review.surviving] at none
  rw [none]
  rfl

/-- A review that stays under the first scope goes under the second exactly when it
goes under what both have in common. -/
theorem Review.vanishes_prune {r : Review} (stays : r.vanishes a = false) :
    (r.prune a).vanishes b = r.vanishes c := by
  unfold Review.vanishes at stays ⊢
  rw [r.surviving_prune h]
  cases selections : r.selections with
  | nil => simp [Review.prune, Review.surviving, selections]
  | cons s ss =>
      simp only [selections, List.isEmpty_cons, Bool.not_false, Bool.true_and] at stays ⊢
      have kept : (r.prune a).selections.isEmpty = false := stays
      rw [kept]
      rfl

theorem tailorBranch_tailorBranch (review : Option Review) (props : Option (List Property)) :
    tailorBranch b (tailorBranch a review props).1 (tailorBranch a review props).2 =
      tailorBranch c review props := by
  cases review with
  | none => rfl
  | some r =>
      cases gone : r.vanishes a with
      | true => simp only [tailorBranch, gone, Review.vanishes_of_vanishes h gone, if_true]
      | false =>
          simp only [tailorBranch, gone, Bool.false_eq_true, if_false, Review.vanishes_prune h gone,
            Review.prune_prune h]

theorem Step.tailor_tailor (s : Step) : (s.tailor a).tailor b = s.tailor c := by
  have same := tailorBranch_tailorBranch h s.reviewed s.props
  simp only [Step.tailor, same]

theorem Activity.tailor_tailor (x : Activity) : (x.tailor a).tailor b = x.tailor c := by
  have same := tailorBranch_tailorBranch h x.related x.props
  have steps : ∀ ss : List Step, (ss.map (·.tailor a)).map (·.tailor b) = ss.map (·.tailor c) := by
    intro ss
    rw [List.map_map]
    exact List.map_congr_left fun s _ => s.tailor_tailor h
  simp only [Activity.tailor, same, Option.map_map, Function.comp_def, steps]

theorem Review.narrow_narrow (r : Review) : (r.narrow a).narrow b = r.narrow c := by
  simp only [Review.narrow, List.map_map]
  congr 1
  exact List.map_congr_left fun s _ => s.narrow_narrow h

theorem Plan.tailor_tailor (p : Plan) : (p.tailor a).tailor b = p.tailor c := by
  have activities : ∀ xs : List Activity,
      (xs.map (·.tailor a)).map (·.tailor b) = xs.map (·.tailor c) := by
    intro xs
    rw [List.map_map]
    exact List.map_congr_left fun x _ => x.tailor_tailor h
  simp only [Plan.tailor, Option.map_map, Function.comp_def, activities, Review.narrow_narrow h]

end Common

/-- Tailoring to two scopes in turn is tailoring to any scope with the controls that
both have, however they are listed and whatever framework it names. So the order of
two tailorings does not matter, and to repeat one changes nothing. -/
theorem tailor_composition (a b : Scope) (framework : String) (ids : List String)
    (common : ∀ id, id ∈ ids ↔ id ∈ a.controls ∧ id ∈ b.controls) (p : Plan) :
    (p.tailor a.controls).tailor b.controls =
        p.tailor (ScopeConfig.mk framework ids).scope.controls ∧
      (p.tailor a.controls).tailor b.controls = (p.tailor b.controls).tailor a.controls ∧
      (p.tailor a.controls).tailor a.controls = p.tailor a.controls := by
  have met : ∀ id, id ∈ IdSet.ofList ids ↔ id ∈ a.controls ∧ id ∈ b.controls :=
    fun id => IdSet.mem_ofList.trans (common id)
  have here := p.tailor_tailor met
  have there := p.tailor_tailor fun id => (met id).trans and_comm
  exact ⟨here, here.trans there.symm, p.tailor_tailor fun id => (and_self_iff).symm⟩

/-- A plan with all controls in one place and lists in others: one with a repetition,
one that two scopes empty only together, an empty one beside an exception, and a branch
that is skipped already. -/
def twoActivities : Plan where
  uuid := "11111111-1111-4111-8111-111111111111"
  metadata := ⟨"Two activities", "2024-02-29T12:00:00Z", "1.0", "1.1.3",
    [("parties", .array [.object [("order", .number (.integer (-7))), ("uuid", .text "p")]])]⟩
  systemPlan := ⟨"ssp.json", []⟩
  definitions := some {
    activities := some [
      { uuid := "22222222-2222-4222-8222-222222222222"
        title := some "first"
        description := ""
        props := some [⟨"skipped", "false", some Property.toolNamespace, some "kept", []⟩]
        steps := some [
          { uuid := "33333333-3333-4333-8333-333333333333"
            title := none
            description := "a \"check\""
            props := none
            reviewed := some (.ofIds ["ac-1", "ac-3"])
            others := [] }]
        related := some ⟨none, none, [⟨none, none, true, some [⟨"ac-9", none⟩], none, []⟩], []⟩
        others := [("subjects", .null)] },
      { uuid := "44444444-4444-4444-8444-444444444444"
        title := none
        description := ""
        props := some [.ofTool Property.skipped "true"]
        steps := none
        related := none
        others := [] }]
    others := [] }
  reviewed := ⟨none, none, [.ofIds ["ac-2", "ac-2", "ac-1"],
    ⟨none, none, false, some [], some [⟨"ac-4", some ["ac-4_smt"]⟩], []⟩], []⟩
  others := [("back-matter", .object [])]

theorem tailor_composition_twoActivities :
    (∀ id, id ∈ ["ac-2", "ac-2"] ↔
      id ∈ (ScopeConfig.mk "f" ["ac-2", "ac-1"]).scope.controls ∧
        id ∈ (ScopeConfig.mk "g" ["ac-3", "ac-2"]).scope.controls) ∧
      (twoActivities.tailor (ScopeConfig.mk "f" ["ac-2", "ac-1"]).scope.controls).tailor
          (ScopeConfig.mk "g" ["ac-3", "ac-2"]).scope.controls =
        twoActivities.tailor (ScopeConfig.mk "h" ["ac-2", "ac-2"]).scope.controls ∧
      (twoActivities.tailor (ScopeConfig.mk "f" ["ac-2", "ac-1"]).scope.controls).tailor
          (ScopeConfig.mk "g" ["ac-3", "ac-2"]).scope.controls =
        (twoActivities.tailor (ScopeConfig.mk "g" ["ac-3", "ac-2"]).scope.controls).tailor
          (ScopeConfig.mk "f" ["ac-2", "ac-1"]).scope.controls ∧
      (twoActivities.tailor (ScopeConfig.mk "f" ["ac-2", "ac-1"]).scope.controls).tailor
          (ScopeConfig.mk "f" ["ac-2", "ac-1"]).scope.controls =
        twoActivities.tailor (ScopeConfig.mk "f" ["ac-2", "ac-1"]).scope.controls := by
  have common : ∀ id, id ∈ ["ac-2", "ac-2"] ↔
      id ∈ (ScopeConfig.mk "f" ["ac-2", "ac-1"]).scope.controls ∧
        id ∈ (ScopeConfig.mk "g" ["ac-3", "ac-2"]).scope.controls := by
    intro id
    simp only [ScopeConfig.scope, IdSet.mem_ofList, List.mem_cons, List.not_mem_nil, or_false]
    constructor
    · rintro (rfl | rfl) <;> decide
    · rintro ⟨rfl | rfl, second⟩
      · exact .inl rfl
      · revert second
        decide
  exact ⟨common, tailor_composition _ _ "h" _ common twoActivities⟩

end AssessmentPlans
