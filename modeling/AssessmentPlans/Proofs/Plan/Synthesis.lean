import AssessmentPlans.Plan.Synthesis
import AssessmentPlans.Proofs.Distinct

/-! What the plan for a framework consists of: which controls and which rules there are, and
one activity for each rule, whatever identifiers are given out. -/
namespace AssessmentPlans

variable {framework rule control : String} {ds : List Definition} {ids : Nat → String} {now : String}

/-! What the requirements of a framework come to, without going through them in turn. -/

/-- The requirements that name a control. -/
def namedRequirements (framework : String) (ds : List Definition) : List Requirement :=
  (requirementsFor framework ds).filter (·.controlId ≠ "")

/-- The controls of a framework, each once, in the order in which requirements name them. -/
def controlsOf (framework : String) (ds : List Definition) : List String :=
  distinct ((namedRequirements framework ds).map (·.controlId))

/-- Which rule assesses which control. -/
def Requirement.links (r : Requirement) : List (String × String) := r.rules.map (·, r.controlId)

def linksOf (framework : String) (ds : List Definition) : List (String × String) :=
  (namedRequirements framework ds).flatMap (·.links)

/-- The rules of a framework, each once, in the order in which requirements name them. -/
def rulesOf (framework : String) (ds : List Definition) : List String :=
  distinct ((linksOf framework ds).map (·.1))

/-- The controls that a rule assesses. -/
def ruleControls (framework : String) (ds : List Definition) (rule : String) : List String :=
  distinct (((linksOf framework ds).filter (·.1 = rule)).map (·.2))

theorem mem_namedRequirements {r : Requirement} : r ∈ namedRequirements framework ds ↔
    ∃ i ∈ implementationsFor framework ds, r ∈ i.requirements ∧ r.controlId ≠ "" := by
  simp only [namedRequirements, requirementsFor, List.mem_filter, List.mem_flatMap,
    decide_eq_true_iff]
  exact ⟨fun ⟨⟨i, h, member⟩, named⟩ => ⟨i, h, member, named⟩,
    fun ⟨i, h, member, named⟩ => ⟨⟨i, h, member⟩, named⟩⟩

theorem mem_controlsOf : control ∈ controlsOf framework ds ↔
    ∃ r ∈ namedRequirements framework ds, r.controlId = control := by
  rw [controlsOf, mem_distinct, List.mem_map]

theorem controlsOf_nodup (framework : String) (ds : List Definition) :
    (controlsOf framework ds).Nodup := distinct_nodup _

theorem not_mem_controlsOf : "" ∉ controlsOf framework ds := by
  intro member
  obtain ⟨r, required, unnamed⟩ := mem_controlsOf.mp member
  obtain ⟨_, _, _, named⟩ := mem_namedRequirements.mp required
  exact named unnamed

theorem mem_linksOf : (rule, control) ∈ linksOf framework ds ↔
    ∃ r ∈ namedRequirements framework ds, rule ∈ r.rules ∧ r.controlId = control := by
  simp only [linksOf, Requirement.links, List.mem_flatMap, List.mem_map, Prod.mk.injEq]
  refine exists_congr fun r => and_congr_right fun _ => ?_
  exact ⟨fun ⟨_, h, same, named⟩ => ⟨same ▸ h, named⟩, fun ⟨h, named⟩ => ⟨rule, h, rfl, named⟩⟩

theorem mem_rulesOf : rule ∈ rulesOf framework ds ↔
    ∃ control, (rule, control) ∈ linksOf framework ds := by
  simp only [rulesOf, mem_distinct, List.mem_map, Prod.exists, exists_and_right, exists_eq_right]

theorem mem_ruleControls : control ∈ ruleControls framework ds rule ↔
    (rule, control) ∈ linksOf framework ds := by
  simp only [ruleControls, mem_distinct, List.mem_map, List.mem_filter, decide_eq_true_iff,
    Prod.exists, exists_eq_right]

/-! Going through the requirements comes to just that. -/

/-- One more link, for rules that are each listed with their controls. -/
theorem linkRule_map {rules : List String} {controls : String → List String}
    (nodup : rules.Nodup) (unlisted : rule ∉ rules → controls rule = []) :
    linkRule control rule (rules.map fun r => (r, controls r)) =
      (addNew rules rule).map fun r =>
        (r, if r = rule then addNew (controls r) control else controls r) := by
  unfold linkRule
  induction rules with
  | nil =>
      have none := unlisted List.not_mem_nil
      simp [amend, addNew, none]
  | cons r rules ih =>
      obtain ⟨fresh, nodup⟩ := List.nodup_cons.mp nodup
      by_cases same : r = rule
      · subst same
        rw [addNew_of_mem List.mem_cons_self, List.map_cons, List.map_cons, amend, if_pos rfl,
          if_pos rfl]
        congr 1
        refine List.map_congr_left fun other member => ?_
        rw [if_neg (ne_of_mem_of_not_mem member fresh)]
      · rw [addNew_cons same, List.map_cons, List.map_cons, amend, if_neg same, if_neg same]
        congr 1
        exact ih nodup fun h => unlisted (List.not_mem_cons_of_ne_of_not_mem (Ne.symm same) h)

/-- Following links one after the other lists each rule once, with each of its controls once. -/
theorem foldl_linkRule (links : List (String × String)) :
    links.foldl (fun rules l => linkRule l.2 l.1 rules) [] =
      (distinct (links.map (·.1))).map fun rule =>
        (rule, distinct ((links.filter (·.1 = rule)).map (·.2))) := by
  induction links using List.reverseRecOn with
  | nil => rfl
  | append_singleton links l ih =>
      have unlisted : l.1 ∉ distinct (links.map (·.1)) →
          distinct ((links.filter (·.1 = l.1)).map (·.2)) = [] := by
        intro h
        rw [mem_distinct] at h
        have none : links.filter (·.1 = l.1) = [] :=
          List.filter_eq_nil_iff.mpr fun other member same =>
            h (List.mem_map.mpr ⟨other, member, of_decide_eq_true same⟩)
        rw [none]
        rfl
      rw [List.foldl_concat, ih, linkRule_map (distinct_nodup _) unlisted, List.map_append,
        List.map_singleton, distinct_concat]
      refine List.map_congr_left fun rule _ => ?_
      rw [List.filter_append, List.map_append]
      by_cases same : rule = l.1
      · subst same
        simp [distinct_concat]
      · simp [same, Ne.symm same]

theorem foldl_collection_add (rs : List Requirement) (controls : List String)
    (rules : List (String × List String)) :
    rs.foldl .add ⟨controls, rules⟩ = (⟨
      ((rs.filter (·.controlId ≠ "")).map (·.controlId)).foldl addNew controls,
      ((rs.filter (·.controlId ≠ "")).flatMap (·.links)).foldl (fun rules l => linkRule l.2 l.1 rules)
        rules⟩ : Collection) := by
  induction rs generalizing controls rules with
  | nil => rfl
  | cons r rs ih =>
      rw [List.foldl_cons, Collection.add]
      by_cases unnamed : r.controlId = ""
      · rw [if_pos unnamed, ih]
        simp [unnamed]
      · rw [if_neg unnamed, ih]
        simp [unnamed, Requirement.links, List.foldl_map]

theorem collect_eq (framework : String) (ds : List Definition) : collect framework ds =
    ⟨controlsOf framework ds,
      (rulesOf framework ds).map fun rule => (rule, ruleControls framework ds rule)⟩ := by
  rw [collect, foldl_collection_add, foldl_addNew, foldl_linkRule]
  rfl

/-! The plan. -/

/-- Only what is implemented can be planned. -/
theorem frameworkFault?_eq_none : frameworkFault? framework ds = none ↔
    ∃ i, i ∈ implementationsFor framework ds := by
  unfold frameworkFault?
  cases implemented : implementationsFor framework ds with
  | nil =>
      refine iff_of_false ?_ fun ⟨i, member⟩ => absurd member List.not_mem_nil
      split
      · exact nofun
      · exact nofun
  | cons i is =>
      refine iff_of_true ?_ ⟨i, List.mem_cons_self⟩
      cases ds with
      | nil => cases implemented
      | cons d ds => rfl

/-- The plan for a framework that can be planned. -/
def wholePlan (framework : String) (ds : List Definition) (ids : Nat → String) (now : String) : Plan :=
  let activities := ruleActivities ds (fun n => ids (n + 1)) (collect framework ds).rules
  { uuid := ids 0
    metadata := ⟨"Assessment Plan for " ++ framework, now, "0.1.0", "1.1.3", []⟩
    systemPlan := ⟨"NOT_PROVIDED", []⟩
    definitions := if activities.isEmpty then none else some ⟨some activities, []⟩
    reviewed := .ofIds (collect framework ds).controls
    others := [] }

theorem Plan.synthesize_eq (framework : String) (ds : List Definition) (ids : Nat → String)
    (now : String) : synthesize framework ds ids now = match frameworkFault? framework ds with
      | some fault => .error fault
      | none => .ok (wholePlan framework ds ids now) := rfl

theorem Plan.synthesize_eq_ok (h : ∃ i, i ∈ implementationsFor framework ds) :
    synthesize framework ds ids now = .ok (wholePlan framework ds ids now) := by
  rw [synthesize_eq, frameworkFault?_eq_none.mpr h]

theorem Plan.exists_synthesize : (∃ p, synthesize framework ds ids now = .ok p) ↔
    ∃ i, i ∈ implementationsFor framework ds := by
  rw [← frameworkFault?_eq_none, synthesize_eq]
  cases frameworkFault? framework ds with
  | none => exact iff_of_true ⟨_, rfl⟩ rfl
  | some fault => exact iff_of_false nofun nofun

theorem wholePlan_reviewed : (wholePlan framework ds ids now).reviewed =
    .ofIds (controlsOf framework ds) := by
  rw [wholePlan, collect_eq]

theorem wholePlan_activities : (wholePlan framework ds ids now).activities =
    ruleActivities ds (fun n => ids (n + 1)) (collect framework ds).rules := by
  rw [wholePlan, Plan.activities]
  cases ruleActivities ds _ _ <;> rfl

/-- A rule is collected because a requirement names it, and so it has a control. -/
theorem mem_collect_rules {r : String × List String} (member : r ∈ (collect framework ds).rules) :
    r.2.Nodup ∧ r.2 ≠ [] ∧ ∀ control ∈ r.2, control ∈ controlsOf framework ds := by
  rw [collect_eq] at member
  obtain ⟨rule, listed, rfl⟩ := List.mem_map.mp member
  obtain ⟨control, link⟩ := mem_rulesOf.mp listed
  refine ⟨distinct_nodup _, List.ne_nil_of_mem (mem_ruleControls.mpr link), ?_⟩
  intro control assessed
  obtain ⟨r, required, _, named⟩ := mem_linksOf.mp (mem_ruleControls.mp assessed)
  exact mem_controlsOf.mpr ⟨r, required, named⟩

theorem Selection.includedIds_ofIds (controls : List String) :
    (Selection.ofIds controls).includedIds = controls := by
  rw [includedIds, includedRefs, ofIds, Option.getD_some, List.map_map]
  exact List.map_id _

/-- A host with two rules, one of them with a check. The rule that comes first is named again
later, for another control. -/
def hostRequirements : List Requirement :=
  [⟨"1", "ac-1", "", some [.plain "Rule_Id" "login"], []⟩,
    ⟨"2", "ac-2", "", some [.plain "Rule_Id" "hashing"], []⟩,
    ⟨"3", "ac-3", "", some [.plain "Rule_Id" "login"], []⟩]

def hostImplementation : Implementation :=
  ⟨"4", "profiles/cis.json", "", none, hostRequirements, []⟩

def hostDefinitions : List Definition :=
  [⟨"5", ⟨"Host", "", "", "", []⟩, some [
    { uuid := "6"
      kind := "service"
      title := "Linux"
      description := ""
      props := some [⟨"Rule_Id", "login", none, some "0", []⟩, ⟨"Check_Id", "ssh", none, some "0", []⟩]
      implementations := some [hostImplementation]
      others := [] }], []⟩]

theorem hostImplementation_mem : hostImplementation ∈ implementationsFor "cis" hostDefinitions := by
  have targets : hostImplementation.frameworkId == "cis" := by decide +kernel
  exact List.mem_filter.mpr ⟨List.mem_singleton.mpr rfl, targets⟩

end AssessmentPlans
