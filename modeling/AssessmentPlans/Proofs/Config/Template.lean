import AssessmentPlans.Proofs.Config.Repetition
import AssessmentPlans.Proofs.Config.RoundTrip
import AssessmentPlans.Proofs.Config.Validity
import AssessmentPlans.Proofs.Framework
import AssessmentPlans.Proofs.Pipeline
import AssessmentPlans.Proofs.Scope.Normal

/-! The configuration with all controls of a framework. It is accepted as it is, it is read
back from its text, and planning with it comes to the same as planning without any. -/
namespace AssessmentPlans

/-- What the report says of a tailoring that changed nothing, where these are the controls. -/
structure Report.Unchanged (controls : List String) (r : Report) : Prop where
  /-- Each selection had its controls listed, and they are those it has now. -/
  counted : ∀ e ∈ r.entries, e.before = some e.included.length
  emptied : r.emptied = 0
  skipped : r.skipped = []
  retained : r.retained = .ofList controls

section Normal

variable {scope : IdSet} {p : Plan}

theorem Plan.mem_located {x : Location × Selection} (member : x ∈ p.located) :
    x.2 ∈ p.inner ++ p.reviewed.selections := by
  rw [← located_selections]
  exact List.mem_map.mpr ⟨x, member, rfl⟩

theorem Plan.Normal.selection (h : p.Normal scope) {s : Selection}
    (member : s ∈ p.inner ++ p.reviewed.selections) : s.Normal scope := by
  rcases List.mem_append.mp member with inside | outside
  · exact (h.inner s inside).1
  · exact h.top s outside

/-- A plan in normal form that selects controls in every selection is reported unchanged. -/
theorem Plan.Normal.report_unchanged (h : p.Normal scope) {controls : List String}
    (filled : ∀ s ∈ p.inner ++ p.reviewed.selections, s.includedIds ≠ [])
    (selected : ∀ id, id ∈ controls ↔ ∃ s ∈ p.inner ++ p.reviewed.selections, id ∈ s.includedIds) :
    (p.report scope).Unchanged controls := by
  have same : ∀ s ∈ p.inner ++ p.reviewed.selections, s.narrow scope = s :=
    fun s member => (h.selection member).narrow
  constructor
  · intro e listed
    rw [report_entries] at listed
    obtain ⟨x, member, rfl⟩ := List.mem_map.mp listed
    have part := mem_located member
    rw [entryOf, same _ part, Selection.count?, (h.selection part).listed, Selection.includedIds,
      List.length_map]
    rfl
  · rw [Report.emptied, List.length_eq_zero_iff, List.filter_eq_nil_iff]
    intro e listed
    rw [report_entries] at listed
    obtain ⟨x, member, rfl⟩ := List.mem_map.mp listed
    have part := mem_located member
    rw [entryOf, same _ part]
    exact mt List.isEmpty_iff.mp (filled _ part)
  · exact h.report_skipped
  · apply IdSet.ext_mem
    intro id
    rw [mem_report_retained, IdSet.mem_ofList, selected id]
    constructor
    · rintro ⟨s, member, kept⟩
      exact ⟨s, member, same s member ▸ kept⟩
    · rintro ⟨s, member, listed⟩
      exact ⟨s, member, (same s member).symm ▸ listed⟩

theorem Selection.ofIds_normal {controls : List String} (nodup : controls.Nodup)
    (filled : controls ≠ []) (inside : ∀ c ∈ controls, c ∈ scope) :
    (Selection.ofIds controls).Normal scope := by
  refine ⟨rfl, ?_⟩
  rintro _ ⟨⟩
  have ids : (controls.map ControlRef.whole).map (·.id) = controls := by
    rw [List.map_map]
    exact List.map_id _
  refine ⟨mt List.map_eq_nil_iff.mp filled, ids.symm ▸ nodup, ?_⟩
  intro c listed
  obtain ⟨id, member, rfl⟩ := List.mem_map.mp listed
  exact inside id member

end Normal

section Whole

variable {framework now : String} {ds : List Definition} {ids : Nat → String}

/-- Below its top a plan that has been built selects the controls of one rule at each place. -/
theorem wholePlan_inner {s : Selection} (member : s ∈ (wholePlan framework ds ids now).inner) :
    ∃ r ∈ (collect framework ds).rules, s = .ofIds r.2 := by
  obtain ⟨b, part, listed⟩ := List.mem_flatMap.mp member
  obtain ⟨a, built, part⟩ := List.mem_flatMap.mp part
  rw [wholePlan_activities] at built
  obtain ⟨r, rule, k, _, rfl⟩ := mem_ruleActivities built
  refine ⟨r, rule, ?_⟩
  rcases List.mem_cons.mp part with rfl | part
  · exact List.mem_singleton.mp listed
  · obtain ⟨t, step, rfl⟩ := List.mem_map.mp part
    rw [ruleActivity_stepList] at step
    obtain ⟨n, _, rfl⟩ := List.mem_mapIdx.mp step
    exact List.mem_singleton.mp listed

theorem wholePlan_selection {s : Selection}
    (member : s ∈ (wholePlan framework ds ids now).inner ++
      (wholePlan framework ds ids now).reviewed.selections)
    (listed : controlsOf framework ds ≠ []) :
    ∃ controls : List String, s = .ofIds controls ∧ controls.Nodup ∧ controls ≠ [] ∧
      ∀ c ∈ controls, c ∈ controlsOf framework ds := by
  rcases List.mem_append.mp member with inside | top
  · obtain ⟨r, rule, rfl⟩ := wholePlan_inner inside
    exact ⟨r.2, rfl, mem_collect_rules rule⟩
  · rw [wholePlan_reviewed] at top
    exact ⟨_, List.mem_singleton.mp top, controlsOf_nodup _ _, listed, fun _ => id⟩

theorem wholePlan_normal (listed : controlsOf framework ds ≠ []) :
    (wholePlan framework ds ids now).Normal (.ofList (controlsOf framework ds)) := by
  have normal : ∀ s ∈ (wholePlan framework ds ids now).inner ++
      (wholePlan framework ds ids now).reviewed.selections,
      s.Normal (.ofList (controlsOf framework ds)) := by
    intro s member
    obtain ⟨controls, rfl, nodup, filled, known⟩ := wholePlan_selection member listed
    exact Selection.ofIds_normal nodup filled
      fun c assessed => IdSet.mem_ofList.mpr (known c assessed)
  constructor
  · intro s member
    refine ⟨normal s (List.mem_append_left _ member), ?_⟩
    obtain ⟨r, _, rfl⟩ := wholePlan_inner member
    exact Option.some_ne_none _
  · intro s member
    exact normal s (List.mem_append_right _ member)

theorem wholePlan_unchanged (listed : controlsOf framework ds ≠ []) :
    ((wholePlan framework ds ids now).report (.ofList (controlsOf framework ds))).Unchanged
      (controlsOf framework ds) := by
  apply (wholePlan_normal listed).report_unchanged
  · intro s member
    obtain ⟨controls, rfl, _, filled, _⟩ := wholePlan_selection member listed
    rw [Selection.includedIds_ofIds]
    exact filled
  · intro id
    constructor
    · intro known
      refine ⟨.ofIds (controlsOf framework ds), List.mem_append_right _ ?_, ?_⟩
      · rw [wholePlan_reviewed]
        exact List.mem_singleton.mpr rfl
      · rw [Selection.includedIds_ofIds]
        exact known
    · rintro ⟨s, member, selected⟩
      obtain ⟨controls, rfl, _, _, known⟩ := wholePlan_selection member listed
      rw [Selection.includedIds_ofIds] at selected
      exact known id selected

/-! Runs with a plan as their result. -/

section Runs

variable (plannable : Plannable framework ds) (fresh : Fresh framework ds ids)
include plannable fresh

theorem wholePlan_verdict_ok : (wholePlan framework ds ids now).issues.verdict = .ok () := by
  obtain ⟨implemented, named⟩ := plannable_iff.mp plannable
  have valid : (wholePlan framework ds ids now).Valid :=
    (wholePlan_valid implemented fresh).mpr named
  exact Issues.verdict_eq_ok.mpr (Plan.issues_errors_eq_nil.mpr valid)

theorem runPipeline_whole :
    (runPipeline framework ds none ids now).2 = .ok (wholePlan framework ds ids now) := by
  rw [runPipeline, Plan.synthesize_eq_ok plannable.implemented]
  simp only [wholePlan_verdict_ok plannable fresh]

variable (now) in
theorem runPipeline_tailored (scope : Scope) :
    (runPipeline framework ds (some scope) ids now).2 =
        .ok ((wholePlan framework ds ids now).tailor scope.controls) ∧
      (runPipeline framework ds (some scope) ids now).1.report =
        (wholePlan framework ds ids now).report scope.controls := by
  obtain ⟨implemented, named⟩ := plannable_iff.mp plannable
  have valid : ((wholePlan framework ds ids now).tailor scope.controls).Valid :=
    wholePlan_tailor_valid implemented fresh named
  rw [runPipeline, Plan.synthesize_eq_ok implemented]
  simp only [wholePlan_verdict_ok plannable fresh, tailorPlan, valid.validate, Except.map, and_self]

end Runs

end Whole

/-! The configuration. -/

/-- A configuration without repetitions is read back from its text without warnings. -/
theorem ScopeConfig.parse_yaml {c : ScopeConfig} (nodup : c.controls.Nodup)
    (source : Option String) : parse c.yaml source = .ok (c, []) := by
  rw [parse, ofYaml_yaml]
  simp only [dedup_of_nodup nodup, repeatWarnings, repeats_of_nodup nodup, if_true]

/-- A configuration with all controls of a framework, left as it was written, changes nothing: it
is read back without warnings, accepted for the framework without warnings, and planning with it
gives the plan that there is without it and reports that nothing was lost. -/
theorem template_changes_nothing (framework : String) (ds : List Definition) (ids : Nat → String)
    (now : String) (source : Option String) (named : ¬Text.Blank framework)
    (listed : ∃ r ∈ requirementsFor framework ds, r.controlId ≠ "")
    (trimmed : ∀ r ∈ requirementsFor framework ds, r.controlId ≠ "" →
      Text.trim r.controlId = r.controlId) (fresh : Fresh framework ds ids) :
    ∃ c, ScopeConfig.template framework ds = .ok c ∧
      ScopeConfig.parse c.yaml source = .ok (c, []) ∧ c.validate (some framework) = .ok [] ∧
      ∃ p, (runPipeline framework ds none ids now).2 = .ok p ∧
        (runPipeline framework ds (some c.scope) ids now).2 = .ok p ∧
        (runPipeline framework ds (some c.scope) ids now).1.report.Unchanged c.controls := by
  obtain ⟨r, required, filled⟩ := listed
  obtain ⟨i, implemented, _⟩ := List.mem_flatMap.mp required
  have member : r ∈ namedRequirements framework ds :=
    List.mem_filter.mpr ⟨required, decide_eq_true filled⟩
  have some : controlsOf framework ds ≠ [] :=
    List.ne_nil_of_mem (mem_controlsOf.mpr ⟨r, member, rfl⟩)
  have clean : ∀ id ∈ controlsOf framework ds, ¬Text.Blank id ∧ Text.trim id = id := by
    intro id known
    obtain ⟨q, assessed, rfl⟩ := mem_controlsOf.mp known
    obtain ⟨needed, filled⟩ := List.mem_filter.mp assessed
    have filled := of_decide_eq_true filled
    have same := trimmed q needed filled
    exact ⟨fun blank => filled (same.symm.trans (Text.trim_eq_empty.mpr blank)), same⟩
  have plannable : Plannable framework ds :=
    plannable_iff.mpr ⟨⟨i, implemented⟩, fun id known => (clean id known).1⟩
  have made := ScopeConfig.template_eq_ok.mpr ⟨⟨i, implemented⟩, rfl⟩
  obtain ⟨tailored, reported⟩ := runPipeline_tailored now plannable fresh
    (ScopeConfig.mk framework (controlsOf framework ds)).scope
  refine ⟨_, made, ScopeConfig.parse_yaml (controlsOf_nodup _ _) source,
    ScopeConfig.validate_of_trimmed named some clean, _, runPipeline_whole plannable fresh, ?_, ?_⟩
  · rw [tailored]
    exact congrArg Except.ok (wholePlan_normal some).tailor
  · rw [reported]
    exact wholePlan_unchanged some

theorem template_changes_nothing_host :
    ∃ c, ScopeConfig.template "cis" hostDefinitions = .ok c ∧
      ScopeConfig.parse c.yaml none = .ok (c, []) ∧ c.validate (some "cis") = .ok [] := by
  have listed : ∃ r ∈ requirementsFor "cis" hostDefinitions, r.controlId ≠ "" := by decide +kernel
  have trimmed : ∀ r ∈ requirementsFor "cis" hostDefinitions, r.controlId ≠ "" →
      Text.trim r.controlId = r.controlId := by decide +kernel
  have valid : Uuid.isValid "00000000-0000-4000-8000-000000000000" = true := by decide +kernel
  obtain ⟨c, made, read, accepted, _⟩ := template_changes_nothing "cis" hostDefinitions
    (fun _ => "00000000-0000-4000-8000-000000000000") "yesterday" none (by decide +kernel) listed
    trimmed (fun _ _ => valid)
  exact ⟨c, made, read, accepted⟩

end AssessmentPlans
