import AssessmentPlans.Pipeline
import AssessmentPlans.Proofs.Plan.Synthesis
import AssessmentPlans.Proofs.Scope.Rules
import AssessmentPlans.Proofs.Scope.Validity

/-! What makes planning fail. Only the definitions do: a plan that is built follows the rules
unless a requirement names a control that is nothing but white space, and no scope spoils it. -/
namespace AssessmentPlans

variable {scope : IdSet} {controls : List String} {framework rule now : String}
  {ds : List Definition} {ids : Nat → String}

/-! The reviews that planning makes. -/

theorem Selection.ofIds_names : (Selection.ofIds controls).NamesControls ↔
    ∀ c ∈ controls, ¬Text.Blank c := by
  rw [NamesControls]
  show (∀ c ∈ controls.map ControlRef.whole ++ [], ¬Text.Blank c.id) ↔ _
  rw [List.append_nil, List.forall_mem_map]
  rfl

theorem Selection.narrow_ofIds_names (nodup : controls.Nodup)
    (named : ∀ c ∈ controls, ¬Text.Blank c) : ((Selection.ofIds controls).narrow scope).NamesControls := by
  rw [NamesControls, narrow_includedRefs, keptRefs_ofIds nodup, narrow_excludedRefs]
  show ∀ c ∈ (scope.within controls).map ControlRef.whole ++ [], ¬Text.Blank c.id
  rw [List.append_nil, List.forall_mem_map]
  exact fun c kept => named c (IdSet.mem_within.mp kept).1

theorem Review.ofIds_fits {props : Option (List Property)} (active : Property.isSkipped props = false)
    (filled : controls ≠ []) (named : ∀ c ∈ controls, ¬Text.Blank c) :
    (Review.ofIds controls).FitsBranch props := by
  refine ⟨active, ?_, ?_⟩
  · intro s member
    rw [List.mem_singleton.mp member]
    exact Selection.ofIds_names.mpr named
  · intro s member
    rw [List.mem_singleton.mp member]
    cases controls with
    | nil => exact absurd rfl filled
    | cons c cs => rfl

/-- How many identifiers the activities of rules take. -/
def idCount (ds : List Definition) : List (String × List String) → Nat
  | [] => 0
  | (rule, _) :: rules => 1 + (checksOf ds rule).length + idCount ds rules

theorem freshIdCount_eq (implemented : ∃ i, i ∈ implementationsFor framework ds) :
    freshIdCount framework ds = 1 + idCount ds (collect framework ds).rules := by
  have counting : ∀ (rules : List (String × List String)) (n : Nat),
      rules.foldl (fun n rule => n + 1 + (checksOf ds rule.1).length) n = n + idCount ds rules := by
    intro rules
    induction rules with
    | nil => exact fun n => rfl
    | cons r rules ih =>
        intro n
        rw [List.foldl_cons, ih, idCount]
        omega
  rw [freshIdCount, frameworkFault?_eq_none.mpr implemented]
  exact counting _ 1

/-- The identifiers that a plan takes are well formed. -/
def Fresh (framework : String) (ds : List Definition) (ids : Nat → String) : Prop :=
  ∀ n < freshIdCount framework ds, Uuid.isValid (ids n) = true

theorem ruleActivity_stepList (ids : Nat → String) (rule : String) (controls : List String) :
    (ruleActivity ds ids rule controls).stepList =
      (checksOf ds rule).mapIdx fun n c => c.step (ids (n + 1)) controls := by
  rw [Activity.stepList, ruleActivity, ruleSteps]
  cases (checksOf ds rule).mapIdx fun n c => c.step (ids (n + 1)) controls <;> rfl

theorem ruleActivity_valid (fresh : ∀ n < 1 + (checksOf ds rule).length, Uuid.isValid (ids n) = true)
    (filled : controls ≠ []) (named : ∀ c ∈ controls, ¬Text.Blank c) :
    (ruleActivity ds ids rule controls).Valid := by
  refine ⟨fresh 0 (by omega), ?_, ?_⟩
  · rintro _ ⟨⟩
    exact Review.ofIds_fits ruleActivity_active filled named
  · intro s member
    rw [ruleActivity_stepList] at member
    obtain ⟨n, bound, rfl⟩ := List.mem_mapIdx.mp member
    refine ⟨fresh (n + 1) (by omega), ?_⟩
    rintro _ ⟨⟩
    exact Review.ofIds_fits (Property.isSkipped_plain _ _) filled named

/-- A scope may have blank identifiers of its own, but none of them gets into a list of controls. -/
theorem ruleActivity_tailor_valid (nodup : controls.Nodup) (filled : controls ≠ [])
    (named : ∀ c ∈ controls, ¬Text.Blank c) (valid : (ruleActivity ds ids rule controls).Valid) :
    ((ruleActivity ds ids rule controls).tailor scope).Valid := by
  have all : (IdSet.ofList controls).within controls = controls :=
    List.filter_eq_self.mpr fun c member => decide_eq_true (IdSet.mem_ofList.mpr member)
  have unchanged : (ruleActivity ds ids rule controls).tailor (.ofList controls) =
      ruleActivity ds ids rule controls := by
    rw [ruleActivity_tailor nodup (all.symm ▸ filled), all]
  have common : ∀ id, id ∈ IdSet.ofList (scope.within controls) ↔
      id ∈ IdSet.ofList controls ∧ id ∈ scope := by
    intro id
    rw [IdSet.mem_ofList, IdSet.mem_within, IdSet.mem_ofList]
  rw [← unchanged, Activity.tailor_tailor common]
  exact valid.tailor fun c member => named c (IdSet.mem_within.mp (IdSet.mem_ofList.mp member)).1

theorem mem_ruleActivities {a : Activity} {rules : List (String × List String)}
    (member : a ∈ ruleActivities ds ids rules) : ∃ r ∈ rules, ∃ k,
      k + (1 + (checksOf ds r.1).length) ≤ idCount ds rules ∧
        a = ruleActivity ds (fun n => ids (k + n)) r.1 r.2 := by
  induction rules generalizing ids with
  | nil => cases member
  | cons r rules ih =>
      rw [idCount]
      rcases List.mem_cons.mp member with rfl | member
      · refine ⟨r, List.mem_cons_self, 0, by omega, ?_⟩
        simp only [Nat.zero_add]
      · obtain ⟨r', listed, k, bound, rfl⟩ := ih member
        refine ⟨r', List.mem_cons_of_mem r listed, k + (1 + (checksOf ds r.1).length), by omega, ?_⟩
        congr 1
        funext n
        congr 1
        omega

theorem planTitle_named (framework : String) : ¬Text.Blank ("Assessment Plan for " ++ framework) := by
  intro blank
  have letter := blank 'A' (by simp)
  exact absurd letter (by decide)

section Whole

variable (implemented : ∃ i, i ∈ implementationsFor framework ds) (fresh : Fresh framework ds ids)
include implemented fresh

theorem Fresh.first : Uuid.isValid (ids 0) = true :=
  fresh 0 (by rw [freshIdCount_eq implemented]; omega)

theorem wholePlan_activity_valid
    (named : ∀ r ∈ (collect framework ds).rules, ∀ c ∈ r.2, ¬Text.Blank c) {a : Activity}
    (member : a ∈ (wholePlan framework ds ids now).activities) :
    a.Valid ∧ ∀ scope, (a.tailor scope).Valid := by
  rw [wholePlan_activities] at member
  obtain ⟨r, listed, k, bound, rfl⟩ := mem_ruleActivities member
  obtain ⟨nodup, filled, _⟩ := mem_collect_rules listed
  have valid : (ruleActivity ds (fun n => ids (k + n + 1)) r.1 r.2).Valid := by
    refine ruleActivity_valid (fun n below => fresh _ ?_) filled (named r listed)
    rw [freshIdCount_eq implemented]
    omega
  exact ⟨valid, fun scope => ruleActivity_tailor_valid nodup filled (named r listed) valid⟩

omit implemented fresh in
theorem rules_named (named : ∀ c ∈ controlsOf framework ds, ¬Text.Blank c) :
    ∀ r ∈ (collect framework ds).rules, ∀ c ∈ r.2, ¬Text.Blank c :=
  fun _ listed c assessed => named c ((mem_collect_rules listed).2.2 c assessed)

/-- The plan follows the rules if every control has an identifier that is not blank. -/
theorem wholePlan_valid :
    (wholePlan framework ds ids now).Valid ↔ ∀ c ∈ controlsOf framework ds, ¬Text.Blank c := by
  constructor
  · intro valid
    have names := valid.names
    rw [wholePlan_reviewed] at names
    exact Selection.ofIds_names.mp (names _ (List.mem_singleton.mpr rfl))
  · intro named
    refine ⟨Fresh.first implemented fresh, planTitle_named framework, ?_, ?_⟩
    · intro a member
      exact (wholePlan_activity_valid implemented fresh (rules_named named) member).1
    · rw [wholePlan_reviewed]
      intro s member
      rw [List.mem_singleton.mp member]
      exact Selection.ofIds_names.mpr named

/-- Then it does so under every scope. -/
theorem wholePlan_tailor_valid (named : ∀ c ∈ controlsOf framework ds, ¬Text.Blank c) :
    ((wholePlan framework ds ids now).tailor scope).Valid := by
  refine ⟨Fresh.first implemented fresh, planTitle_named framework, ?_, ?_⟩
  · intro a member
    rw [Plan.tailor_activities] at member
    obtain ⟨old, built, rfl⟩ := List.mem_map.mp member
    exact (wholePlan_activity_valid implemented fresh (rules_named named) built).2 scope
  · intro s member
    have reviewed : ((wholePlan framework ds ids now).tailor scope).reviewed =
        (Review.ofIds (controlsOf framework ds)).narrow scope :=
      congrArg (·.narrow scope) wholePlan_reviewed
    rw [reviewed] at member
    rw [List.mem_singleton.mp member]
    exact Selection.narrow_ofIds_names (controlsOf_nodup _ _) named

end Whole

/-! The first error. -/

/-- How a list of controls is told to have a blank one. -/
def blankIssue (location : Location) : Issue := ⟨location.text, Defect.blankControl.message⟩

theorem Selection.ofIds_errors (location : Location) (blank : ∃ c ∈ controls, Text.Blank c) :
    ∃ rest, issuesOf .error ((Selection.ofIds controls).findings location) =
      blankIssue location :: rest := by
  obtain ⟨c, member, blank⟩ := blank
  have found : ControlRef.whole c ∈ ((Selection.ofIds controls).includedRefs ++
      (Selection.ofIds controls).excludedRefs).filter fun c => Text.Blank c.id :=
    List.mem_filter.mpr ⟨List.mem_append_left _ (List.mem_map_of_mem member), decide_eq_true blank⟩
  rw [findings, issuesOf_append]
  generalize List.filter _ _ = blanks at found
  cases blanks with
  | nil => cases found
  | cons b bs => exact ⟨_, rfl⟩

theorem branchFindings_ofIds {branch : Branch} {props : Option (List Property)}
    (active : Property.isSkipped props = false) :
    branchFindings branch (Property.isSkipped props) (some (.ofIds controls)) =
      (Selection.ofIds controls).findings ⟨branch, 0⟩ := by
  rw [branchFindings, active]
  exact List.append_nil _

theorem ruleActivity_errors (valid : Uuid.isValid (ids 0) = true)
    (blank : ∃ c ∈ controls, Text.Blank c) :
    ∃ rest, issuesOf .error (ruleActivity ds ids rule controls).findings =
      blankIssue ⟨.activity (ids 0), 0⟩ :: rest := by
  have here : uuidFindings (.activity (ids 0)) (ids 0) = [] := if_pos valid
  obtain ⟨rest, first⟩ := Selection.ofIds_errors ⟨.activity (ids 0), 0⟩ blank
  have branch : (ruleActivity ds ids rule controls).findings =
      uuidFindings (.activity (ids 0)) (ids 0) ++
        branchFindings (.activity (ids 0)) (Property.isSkipped (some [.plain "Rule_Id" rule]))
          (some (.ofIds controls)) ++
        (ruleActivity ds ids rule controls).stepList.flatMap (·.findings (ids 0)) := rfl
  rw [branch, here, List.nil_append, branchFindings_ofIds (Property.isSkipped_plain _ _),
    issuesOf_append, first]
  exact ⟨_, rfl⟩

/-- Of the rules with a blank control the first is told of, whatever the identifiers are. -/
theorem ruleActivities_errors (ds : List Definition) (rules : List (String × List String))
    (filled : ∀ r ∈ rules, r.2 ≠ []) : (∀ r ∈ rules, ∀ c ∈ r.2, ¬Text.Blank c) ∨
      ∃ k, ∀ ids : Nat → String, (∀ n < idCount ds rules, Uuid.isValid (ids n) = true) →
        ∃ rest, issuesOf .error ((ruleActivities ds ids rules).flatMap (·.findings)) =
          blankIssue ⟨.activity (ids k), 0⟩ :: rest := by
  induction rules with
  | nil => exact .inl nofun
  | cons r rules ih =>
      obtain ⟨own, others⟩ := List.forall_mem_cons.mp filled
      by_cases blank : ∃ c ∈ r.2, Text.Blank c
      · refine .inr ⟨0, fun ids fresh => ?_⟩
        have here : Uuid.isValid (ids 0) = true := fresh 0 (by rw [idCount]; omega)
        obtain ⟨rest, first⟩ : ∃ rest, issuesOf .error (ruleActivity ds ids r.1 r.2).findings =
          blankIssue ⟨.activity (ids 0), 0⟩ :: rest := ruleActivity_errors here blank
        rw [ruleActivities, List.flatMap_cons, issuesOf_append, first]
        exact ⟨_, rfl⟩
      · have named : ∀ c ∈ r.2, ¬Text.Blank c := fun c member spaces => blank ⟨c, member, spaces⟩
        rcases ih others with clean | ⟨k, first⟩
        · exact .inl (List.forall_mem_cons.mpr ⟨named, clean⟩)
        · refine .inr ⟨k + 1 + (checksOf ds r.1).length, fun ids fresh => ?_⟩
          rw [idCount] at fresh
          have valid : (ruleActivity ds ids r.1 r.2).Valid :=
            ruleActivity_valid (fun n below => fresh n (by omega)) own named
          have none := issuesOf_error_eq_nil.mpr (Activity.findings_harmless.mpr valid)
          rw [ruleActivities, List.flatMap_cons, issuesOf_append, none, List.nil_append]
          exact first _ fun n below => fresh _ (by omega)

/-! What a run comes to. -/

theorem wholePlan_errors (implemented : ∃ i, i ∈ implementationsFor framework ds)
    (fresh : Fresh framework ds ids) : (wholePlan framework ds ids now).issues.errors =
      issuesOf .error ((wholePlan framework ds ids now).activities.flatMap (·.findings)) ++
        issuesOf .error ((Selection.ofIds (controlsOf framework ds)).findings ⟨.top, 0⟩) := by
  have uuid : uuidFindings .planUuid (wholePlan framework ds ids now).uuid = [] :=
    if_pos (Fresh.first implemented fresh)
  have top : selectionFindings .top (wholePlan framework ds ids now).reviewed.selections =
      (Selection.ofIds (controlsOf framework ds)).findings ⟨.top, 0⟩ := by
    rw [wholePlan_reviewed]
    exact List.append_nil _
  have title : ¬Text.Blank (wholePlan framework ds ids now).metadata.title :=
    planTitle_named framework
  show issuesOf .error (Plan.findings _) = _
  rw [Plan.findings, uuid, top, if_neg title, List.nil_append, List.nil_append, issuesOf_append]

theorem Issues.verdict_congr {is is' : Issues} (same : is.errors = is'.errors) :
    is.verdict = is'.verdict := by
  rw [verdict, same, verdict]

theorem Issues.verdict_of_cons {is : Issues} {first : Issue} {rest : List Issue}
    (h : is.errors = first :: rest) : is.verdict = .error (.invalid first.message first.path) := by
  rw [verdict, h]

/-- A verdict may name the identifier of an activity, and is the same for all but that. -/
theorem wholePlan_verdict (implemented : ∃ i, i ∈ implementationsFor framework ds) :
    (∃ verdict, ∀ ids now, Fresh framework ds ids →
      (wholePlan framework ds ids now).issues.verdict = verdict) ∨
    ∃ k, ∀ ids now, Fresh framework ds ids → (wholePlan framework ds ids now).issues.verdict =
      .error (.invalid Defect.blankControl.message (Location.text ⟨.activity (ids k), 0⟩)) := by
  rcases ruleActivities_errors ds (collect framework ds).rules
    fun r listed => (mem_collect_rules listed).2.1 with clean | ⟨k, first⟩
  · let top := issuesOf .error ((Selection.ofIds (controlsOf framework ds)).findings ⟨.top, 0⟩)
    refine .inl ⟨(Issues.mk top []).verdict, fun ids now fresh => Issues.verdict_congr ?_⟩
    have none : issuesOf .error
        ((wholePlan framework ds ids now).activities.flatMap (·.findings)) = [] :=
      issuesOf_error_eq_nil.mpr (harmless_flatMap.mpr fun a built =>
        Activity.findings_harmless.mpr (wholePlan_activity_valid implemented fresh clean built).1)
    rw [wholePlan_errors implemented fresh, none, List.nil_append]
  · refine .inr ⟨k + 1, fun ids now fresh => ?_⟩
    have enough : ∀ n < idCount ds (collect framework ds).rules, Uuid.isValid (ids (n + 1)) = true :=
      fun n below => fresh _ (by rw [freshIdCount_eq implemented]; omega)
    obtain ⟨rest, first⟩ := first _ enough
    have errors : (wholePlan framework ds ids now).issues.errors = _ :=
      wholePlan_errors implemented fresh
    rw [wholePlan_activities, first, List.cons_append] at errors
    exact Issues.verdict_of_cons errors

/-- What definitions must be like for a framework to be planned. -/
structure Plannable (framework : String) (ds : List Definition) : Prop where
  given : ds ≠ []
  implemented : ∃ i, i ∈ implementationsFor framework ds
  named : ∀ i ∈ implementationsFor framework ds, ∀ r ∈ i.requirements,
    r.controlId ≠ "" → ¬Text.Blank r.controlId

theorem plannable_iff : Plannable framework ds ↔
    (∃ i, i ∈ implementationsFor framework ds) ∧ ∀ c ∈ controlsOf framework ds, ¬Text.Blank c := by
  constructor
  · intro h
    refine ⟨h.implemented, fun c listed => ?_⟩
    obtain ⟨r, required, rfl⟩ := mem_controlsOf.mp listed
    obtain ⟨i, member, required, filled⟩ := mem_namedRequirements.mp required
    exact h.named i member r required filled
  · rintro ⟨⟨i, implemented⟩, named⟩
    refine ⟨?_, ⟨i, implemented⟩, fun i member r required filled => ?_⟩
    · rintro rfl
      cases implemented
    · have listed := mem_namedRequirements.mpr ⟨i, member, required, filled⟩
      exact named _ (mem_controlsOf.mpr ⟨r, listed, rfl⟩)

/-- A fault of one run and of another, which take their identifiers from two supplies. -/
inductive PlanFault.Alike (ids ids' : Nat → String) : PlanFault → PlanFault → Prop
  | same (fault : PlanFault) : Alike ids ids' fault fault
  | activity (k index : Nat) (message : String) : Alike ids ids'
      (.invalid message (Location.text ⟨.activity (ids k), index⟩))
      (.invalid message (Location.text ⟨.activity (ids' k), index⟩))

/-- Without a plan the fault is that of the definitions, and with one that of the plan. -/
theorem runPipeline_eq_error {scope : Option Scope} {fault : PlanFault}
    (failed : frameworkFault? framework ds = some fault ∨ frameworkFault? framework ds = none ∧
      (wholePlan framework ds ids now).issues.verdict = .error fault) :
    (runPipeline framework ds scope ids now).2 = .error fault := by
  rcases failed with faulty | ⟨planned, invalid⟩
  · rw [runPipeline, Plan.synthesize_eq, faulty]
  · rw [runPipeline, Plan.synthesize_eq, planned]
    simp only [invalid]

theorem runPipeline_eq_ok {scope : Option Scope} (plannable : Plannable framework ds)
    (fresh : Fresh framework ds ids) : ∃ p, (runPipeline framework ds scope ids now).2 = .ok p := by
  obtain ⟨implemented, named⟩ := plannable_iff.mp plannable
  have valid : (wholePlan framework ds ids now).Valid := (wholePlan_valid implemented fresh).mpr named
  have sound := Issues.verdict_eq_ok.mpr (Plan.issues_errors_eq_nil.mpr valid)
  rw [runPipeline, Plan.synthesize_eq_ok implemented]
  simp only [sound]
  cases scope with
  | none => exact ⟨_, rfl⟩
  | some scope =>
      have tailored : ((wholePlan framework ds ids now).tailor scope.controls).Valid :=
        wholePlan_tailor_valid implemented fresh named
      simp only [tailorPlan, tailored.validate]
      exact ⟨_, rfl⟩

theorem runPipeline_alike (unfit : ¬Plannable framework ds) {ids ids' : Nat → String}
    (fresh : Fresh framework ds ids) (fresh' : Fresh framework ds ids') :
    ∃ fault fault' : PlanFault, fault.Alike ids ids' fault' ∧
      (∀ scope now, (runPipeline framework ds scope ids now).2 = .error fault) ∧
      ∀ scope now, (runPipeline framework ds scope ids' now).2 = .error fault' := by
  cases faulty : frameworkFault? framework ds with
  | some fault =>
      exact ⟨fault, fault, .same fault, fun _ _ => runPipeline_eq_error (.inl faulty),
        fun _ _ => runPipeline_eq_error (.inl faulty)⟩
  | none =>
      have implemented := frameworkFault?_eq_none.mp faulty
      rcases wholePlan_verdict implemented with ⟨verdict, told⟩ | ⟨k, told⟩
      · cases verdict with
        | ok _ =>
            have valid := Plan.issues_errors_eq_nil.mp (Issues.verdict_eq_ok.mp (told ids "" fresh))
            have named := (wholePlan_valid implemented fresh).mp valid
            exact absurd (plannable_iff.mpr ⟨implemented, named⟩) unfit
        | error fault =>
            exact ⟨fault, fault, .same fault,
              fun _ now => runPipeline_eq_error (.inr ⟨faulty, told ids now fresh⟩),
              fun _ now => runPipeline_eq_error (.inr ⟨faulty, told ids' now fresh'⟩)⟩
      · exact ⟨_, _, .activity k 0 _,
          fun _ now => runPipeline_eq_error (.inr ⟨faulty, told ids now fresh⟩),
          fun _ now => runPipeline_eq_error (.inr ⟨faulty, told ids' now fresh'⟩)⟩

/-- Planning succeeds or fails by the definitions alone, whatever the scope is and even if it names
blank controls. It fails in the same way with a scope and without. -/
theorem pipeline_decided (framework : String) (ds : List Definition) (scope : Scope)
    (ids ids' : Nat → String) (now now' : String) (fresh : Fresh framework ds ids)
    (fresh' : Fresh framework ds ids') :
    ((∃ p, (runPipeline framework ds (some scope) ids now).2 = .ok p) ↔ Plannable framework ds) ∧
    ((∃ p, (runPipeline framework ds none ids' now').2 = .ok p) ↔ Plannable framework ds) ∧
    ∀ fault fault', (runPipeline framework ds (some scope) ids now).2 = .error fault →
      (runPipeline framework ds none ids' now').2 = .error fault' → fault.Alike ids ids' fault' := by
  by_cases plannable : Plannable framework ds
  · obtain ⟨p, built⟩ : ∃ p, (runPipeline framework ds (some scope) ids now).2 = .ok p :=
      runPipeline_eq_ok plannable fresh
    obtain ⟨q, built'⟩ : ∃ q, (runPipeline framework ds none ids' now').2 = .ok q :=
      runPipeline_eq_ok plannable fresh'
    refine ⟨iff_of_true ⟨p, built⟩ plannable, iff_of_true ⟨q, built'⟩ plannable, ?_⟩
    intro fault fault' failed _
    rw [built] at failed
    cases failed
  · obtain ⟨fault, fault', alike, failed, failed'⟩ := runPipeline_alike plannable fresh fresh'
    rw [failed, failed']
    refine ⟨iff_of_false nofun plannable, iff_of_false nofun plannable, ?_⟩
    rintro _ _ ⟨⟩ ⟨⟩
    exact alike

theorem pipeline_decided_host :
    Fresh "cis" hostDefinitions (fun _ => "00000000-0000-4000-8000-000000000000") ∧
      Fresh "cis" hostDefinitions (fun _ => "11111111-1111-4111-8111-111111111111") ∧
      ((∃ p, (runPipeline "cis" hostDefinitions (some ⟨"nist", .ofList [" "]⟩)
        (fun _ => "00000000-0000-4000-8000-000000000000") "yesterday").2 = .ok p) ↔
          Plannable "cis" hostDefinitions) ∧
      ((∃ p, (runPipeline "cis" hostDefinitions none
        (fun _ => "11111111-1111-4111-8111-111111111111") "today").2 = .ok p) ↔
          Plannable "cis" hostDefinitions) := by
  have valid : Uuid.isValid "00000000-0000-4000-8000-000000000000" = true := by decide +kernel
  have valid' : Uuid.isValid "11111111-1111-4111-8111-111111111111" = true := by decide +kernel
  have fresh : Fresh "cis" hostDefinitions (fun _ => "00000000-0000-4000-8000-000000000000") :=
    fun _ _ => valid
  have fresh' : Fresh "cis" hostDefinitions (fun _ => "11111111-1111-4111-8111-111111111111") :=
    fun _ _ => valid'
  have decided := pipeline_decided "cis" hostDefinitions ⟨"nist", .ofList [" "]⟩ _ _ "yesterday"
    "today" fresh fresh'
  exact ⟨fresh, fresh', decided.1, decided.2.1⟩

end AssessmentPlans
