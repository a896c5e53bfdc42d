import AssessmentPlans.Proofs.Plan.Synthesis

/-! What components declare. Their properties fall into groups, and the index of rules, which
takes in one group after the other, holds for each rule just what its own groups tell. -/
namespace AssessmentPlans

variable {rule : String} {ds : List Definition} {groups : List (List Property)}

/-- Properties in groups: one for each of their remarks, in ascending order of these, with the
properties that have them as they follow each other. -/
def Grouped (props : List Property) (groups : List (List Property)) : Prop :=
  ∃ keys : List String, keys.Pairwise (· < ·) ∧
    (∀ key, key ∈ keys ↔ ∃ p ∈ props, p.remarks = some key) ∧
    groups = keys.map fun key => props.filter (·.remarks = some key)

/-- The groups of all components, in document order. -/
def GroupsOf (ds : List Definition) (groups : List (List Property)) : Prop :=
  ∃ parts, List.Forall₂ (fun c part => Grouped (Option.getD c.props []) part) (componentsOf ds)
    parts ∧ groups = parts.flatten

/-- The groups of a rule are those that name it first. -/
def ofRule (rule : String) (groups : List (List Property)) : List (List Property) :=
  groups.filter (firstValue? "Rule_Id" · = some rule)

/-! Groups. -/

/-- One more property, for keys that are each listed with their group. -/
theorem addToGroup_map {key : String} {p : Property} {keys : List String}
    {content : String → List Property} (ascending : keys.Pairwise (· < ·))
    (unlisted : key ∉ keys → content key = []) :
    addToGroup key p (keys.map fun k => (k, content k)) =
      (IdSet.insertId key keys).map fun k =>
        (k, if k = key then content k ++ [p] else content k) := by
  have elsewhere : ∀ others : List String, (∀ k ∈ others, k ≠ key) →
      (others.map fun k => (k, if k = key then content k ++ [p] else content k)) =
        others.map fun k => (k, content k) :=
    fun others apart => List.map_congr_left fun k member => by rw [if_neg (apart k member)]
  induction keys with
  | nil =>
      have none := unlisted List.not_mem_nil
      simp [addToGroup, IdSet.insertId, none]
  | cons k keys ih =>
      obtain ⟨first, rest⟩ := List.pairwise_cons.mp ascending
      rw [List.map_cons, addToGroup, IdSet.insertId]
      by_cases before : key < k
      · -- the new group comes before all others, and none of them is its own
        have apart : ∀ other ∈ k :: keys, other ≠ key := by
          intro other member
          rcases List.mem_cons.mp member with rfl | later
          · exact (String.ne_of_lt before).symm
          · exact (String.ne_of_lt (String.lt_trans before (first other later))).symm
        have none := unlisted fun member => apart key member rfl
        rw [if_pos before, if_pos before, List.map_cons, elsewhere _ apart, if_pos rfl, none]
        rfl
      · rw [if_neg before, if_neg before]
        by_cases same : key = k
        · subst same
          have apart : ∀ other ∈ keys, other ≠ key :=
            fun other later => (String.ne_of_lt (first other later)).symm
          rw [if_pos rfl, if_pos rfl, List.map_cons, elsewhere _ apart, if_pos rfl]
        · rw [if_neg same, if_neg same, List.map_cons, if_neg (Ne.symm same)]
          congr 1
          apply ih rest
          intro absent
          exact unlisted (List.not_mem_cons_of_ne_of_not_mem same absent)

theorem foldl_file (props : List Property) : ∃ keys : List String, keys.Pairwise (· < ·) ∧
    (∀ key, key ∈ keys ↔ ∃ p ∈ props, p.remarks = some key) ∧
    props.foldl Property.file [] =
      keys.map fun key => (key, props.filter (·.remarks = some key)) := by
  induction props using List.reverseRecOn with
  | nil => exact ⟨[], .nil, fun key => iff_of_false List.not_mem_nil nofun, rfl⟩
  | append_singleton props p ih =>
      obtain ⟨keys, ascending, listed, filed⟩ := ih
      rw [List.foldl_concat, filed, Property.file]
      simp only [List.filter_append]
      cases own : p.remarks with
      | none =>
          refine ⟨keys, ascending, ?_, ?_⟩
          · simp [listed, or_and_right, exists_or, own]
          · simp [own]
      | some key =>
          refine ⟨IdSet.insertId key keys, IdSet.insertId_ascending ascending, ?_, ?_⟩
          · simp [IdSet.mem_insertId, listed, or_and_right, exists_or, own, or_comm, eq_comm]
          · have unlisted : key ∉ keys → props.filter (·.remarks = some key) = [] := by
              intro absent
              refine List.filter_eq_nil_iff.mpr fun q member same => ?_
              exact absent ((listed key).mpr ⟨q, member, of_decide_eq_true same⟩)
            refine (@addToGroup_map key p keys (fun k => props.filter (·.remarks = some k))
              ascending unlisted).trans (List.map_congr_left fun k _ => ?_)
            by_cases same : k = key
            · simp [same, own]
            · simp [same, own, Ne.symm same]

theorem Component.groups_grouped (c : Component) : Grouped (c.props.getD []) c.groups := by
  obtain ⟨keys, ascending, listed, filed⟩ := foldl_file (c.props.getD [])
  refine ⟨keys, ascending, listed, ?_⟩
  rw [Component.groups, filed, List.map_map]
  rfl

theorem componentGroups_groupsOf (ds : List Definition) :
    GroupsOf ds ((componentsOf ds).flatMap Component.groups) := by
  refine ⟨(componentsOf ds).map Component.groups, ?_, List.flatMap_def⟩
  rw [List.forall₂_map_right_iff]
  exact List.forall₂_same.mpr fun c _ => c.groups_grouped

/-! The index of rules. -/

theorem lookup_cons_ite {β : Type} {key other : String} {entry : β} {entries : List (String × β)} :
    ((key, entry) :: entries).lookup other =
      if other = key then some entry else entries.lookup other := by
  rw [List.lookup_cons]
  by_cases here : other = key
  · rw [if_pos here, beq_iff_eq.mpr here]
  · rw [if_neg here, beq_eq_false_iff_ne.mpr here]

theorem lookup_amend {β : Type} {key other : String} {blank : β} {change : β → β}
    {entries : List (String × β)} : ((amend key blank change entries).lookup other).getD blank =
      if other = key then change ((entries.lookup other).getD blank)
      else (entries.lookup other).getD blank := by
  induction entries with
  | nil =>
      rw [amend, lookup_cons_ite]
      split <;> rfl
  | cons e entries ih =>
      obtain ⟨k, entry⟩ := e
      rw [amend, lookup_cons_ite]
      by_cases own : k = key
      · subst own
        rw [if_pos rfl, lookup_cons_ite]
        by_cases here : other = k
        · rw [if_pos here, if_pos here, if_pos here]
          rfl
        · rw [if_neg here, if_neg here, if_neg here]
      · rw [if_neg own, lookup_cons_ite]
        by_cases first : other = k
        · rw [if_pos first, if_pos first, if_neg (first ▸ own)]
        · rw [if_neg first, if_neg first, ih]

/-- Taking in groups changes the entry of a rule by its own groups only. -/
theorem lookup_foldl_indexGroup (rule : String) (groups : List (List Property))
    (rules : List (String × RuleEntry)) :
    ((groups.foldl indexGroup rules).lookup rule).getD .blank =
      (ofRule rule groups).foldl .add ((rules.lookup rule).getD .blank) := by
  induction groups generalizing rules with
  | nil => rfl
  | cons group groups ih =>
      rw [List.foldl_cons, ih, ofRule, ofRule, List.filter_cons, indexGroup]
      cases named : firstValue? "Rule_Id" group with
      | none => rfl
      | some other =>
          simp only [Option.some.injEq, decide_eq_true_eq, lookup_amend]
          by_cases own : other = rule
          · rw [if_pos own, if_pos own.symm, List.foldl_cons]
          · rw [if_neg own, if_neg (Ne.symm own)]

theorem ruleEntry_eq (ds : List Definition) (rule : String) : ruleEntry ds rule =
    (ofRule rule ((componentsOf ds).flatMap Component.groups)).foldl .add .blank :=
  lookup_foldl_indexGroup rule _ []

/-- An activity depends on the definitions only by what these tell of rules. -/
theorem ruleActivity_congr {ds ds' : List Definition}
    (same : ∀ rule, ruleEntry ds rule = ruleEntry ds' rule) (ids : Nat → String) (rule : String)
    (controls : List String) :
    ruleActivity ds ids rule controls = ruleActivity ds' ids rule controls := by
  rw [ruleActivity, ruleActivity, ruleSteps, ruleSteps, checksOf, checksOf, ruleDescription?,
    ruleDescription?, same]

theorem ruleActivities_congr {ds ds' : List Definition}
    (same : ∀ rule, ruleEntry ds rule = ruleEntry ds' rule) (ids : Nat → String)
    (rules : List (String × List String)) :
    ruleActivities ds ids rules = ruleActivities ds' ids rules := by
  induction rules generalizing ids with
  | nil => rfl
  | cons r rules ih =>
      rw [ruleActivities, ruleActivities, ruleActivity_congr same, checksOf, checksOf, same, ih]

/-- A plan depends on no more than what is required for its framework and what is told of rules. -/
theorem Plan.synthesize_congr {framework : String} {ds ds' : List Definition}
    (fault : frameworkFault? framework ds = frameworkFault? framework ds')
    (collected : collect framework ds = collect framework ds')
    (same : ∀ rule, ruleEntry ds rule = ruleEntry ds' rule) (ids : Nat → String) (now : String) :
    synthesize framework ds ids now = synthesize framework ds' ids now := by
  rw [synthesize_eq, synthesize_eq, fault, wholePlan, wholePlan, collected,
    ruleActivities_congr same]

/-! What the groups of one rule come to. -/

theorem foldl_add_checks (groups : List (List Property)) :
    (groups.foldl RuleEntry.add .blank).checks =
      distinctBy (·.id) (groups.filterMap groupCheck?) := by
  induction groups using List.reverseRecOn with
  | nil => rfl
  | append_singleton groups group ih =>
      rw [List.foldl_concat, RuleEntry.add, List.filterMap_append]
      cases declared : groupCheck? group with
      | none => simp [ih, declared]
      | some check =>
          have known : (groups.foldl RuleEntry.add .blank).checks.any (·.id == check.id) = true ↔
              ¬∀ c ∈ groups.filterMap groupCheck?, c.id ≠ check.id := by
            have ids := @mem_distinct _ _ check.id ((groups.filterMap groupCheck?).map (·.id))
            rw [← map_distinctBy, ← ih, List.mem_map, List.mem_map] at ids
            simpa only [List.any_eq_true, beq_iff_eq, ne_eq, not_forall, not_not, exists_prop]
              using ids
          simp only [List.filterMap_cons, declared, List.filterMap_nil, distinctBy_concat, ← ih]
          by_cases new : ∀ c ∈ groups.filterMap groupCheck?, c.id ≠ check.id
          · rw [if_neg fun seen => known.mp seen new, if_pos new]
          · rw [if_pos (known.mpr new), if_neg new, List.append_nil]

theorem foldl_add_description (groups : List (List Property)) (e : RuleEntry) :
    (groups.foldl RuleEntry.add e).description =
      (e.description <|> (groups.filter (firstValue? "Check_Id" · = none)).findSome?
        (firstValue? "Rule_Description")) := by
  induction groups generalizing e with
  | nil => simp
  | cons group groups ih =>
      rw [List.foldl_cons, ih, RuleEntry.add, List.filter_cons, groupCheck?]
      cases firstValue? "Check_Id" group with
      | none =>
          rw [if_pos (by decide), List.findSome?_cons]
          cases e.description <;> cases firstValue? "Rule_Description" group <;> rfl
      | some id =>
          rw [if_neg (by simp)]
          congr 1
          show (ite _ e _).description = e.description
          split <;> rfl

/-- A check of a rule is described by the first group that declares it. -/
theorem mem_foldl_add_checks {c : Check} (member : c ∈ (groups.foldl RuleEntry.add .blank).checks) :
    ∃ before group after, groups = before ++ group :: after ∧
      (∀ g ∈ before, firstValue? "Check_Id" g ≠ some c.id) ∧
      firstValue? "Check_Id" group = some c.id ∧
      firstValue? "Check_Description" group = c.description := by
  rw [foldl_add_checks] at member
  obtain ⟨earlier, later, here, apart⟩ := first_of_mem_distinctBy member
  obtain ⟨groups₁, groups₂, rfl, rfl, there⟩ := List.filterMap_eq_append_iff.mp here
  obtain ⟨bare, group, after, rfl, none, declared, _⟩ := List.filterMap_eq_cons_iff.mp there
  obtain ⟨id, first, rfl⟩ := Option.map_eq_some_iff.mp declared
  refine ⟨groups₁ ++ bare, group, after, (List.append_assoc _ _ _).symm, ?_, first, rfl⟩
  intro g member same
  rcases List.mem_append.mp member with member | member
  · have told : groupCheck? g = some ⟨id, firstValue? "Check_Description" g⟩ := by
      rw [groupCheck?, same, Option.map_some]
    exact apart _ (List.mem_filterMap.mpr ⟨g, member, told⟩) rfl
  · have silent := none g member
    rw [groupCheck?, same] at silent
    cases silent

/-- A check that is first declared without a description stays without one. -/
example : ([[.plain "Check_Id" "ssh"], [.plain "Rule_Description" "Logging in"],
    [.plain "Check_Id" "ssh", .plain "Check_Description" "No root"]].foldl RuleEntry.add
      .blank).checks = [⟨"ssh", none⟩] := by
  decide +kernel

theorem foldl_add_checkIds (groups : List (List Property)) :
    (groups.foldl RuleEntry.add .blank).checks.map (·.id) =
      distinct (groups.filterMap (firstValue? "Check_Id")) := by
  rw [foldl_add_checks, map_distinctBy, List.map_filterMap]
  congr 2
  funext group
  rw [groupCheck?, Option.map_map]
  exact Option.map_id_apply

end AssessmentPlans
