import AssessmentPlans.Proofs.Scope.Composition
import AssessmentPlans.Proofs.Scope.Walk

/-! The report tells what tailoring did: for each selection of the plan as it was, in
document order, what is left of it, and the branches that lost all they had. -/
namespace AssessmentPlans

/-- The selections of a place that may have no review. -/
def selectionsOf (review : Option Review) : List Selection := (review.map (·.selections)).getD []

/-- The places of an activity and of its steps, with their reviews. -/
def Activity.branches (a : Activity) : List (Branch × Option Review) :=
  (.activity a.uuid, a.related) :: a.stepList.map fun s => (.step a.uuid s.uuid, s.reviewed)

/-- The places below the top of a plan, in document order. -/
def Plan.branches (p : Plan) : List (Branch × Option Review) := p.activities.flatMap (·.branches)

theorem Plan.branch_ne_top {p : Plan} {b : Branch × Option Review} (member : b ∈ p.branches) :
    b.1 ≠ .top := by
  obtain ⟨a, _, part⟩ := List.mem_flatMap.mp member
  cases part with
  | head => exact Branch.noConfusion
  | tail _ part =>
      obtain ⟨s, _, rfl⟩ := List.mem_map.mp part
      exact Branch.noConfusion

def locate (branch : Branch) (ss : List Selection) : List (Location × Selection) :=
  ss.mapIdx fun index s => (⟨branch, index⟩, s)

/-- The selections below the top of a plan. -/
def Plan.inner (p : Plan) : List Selection := p.branches.flatMap fun b => selectionsOf b.2

/-- All selections of a plan in document order. -/
def Plan.located (p : Plan) : List (Location × Selection) :=
  (p.branches.flatMap fun b => locate b.1 (selectionsOf b.2)) ++ locate .top p.reviewed.selections

/-- How many controls a selection lists, if it does not include all. -/
def Selection.count? (s : Selection) : Option Nat :=
  if s.includeAll then none else some s.includedRefs.length

/-- What a report says of a plan and of what it became under a scope. -/
structure Report.Accurate (scope : IdSet) (before after : Plan) (r : Report) : Prop where
  /-- One entry for each selection, in document order. -/
  listed : r.entries.map (fun e => (e.location, e.before)) =
    before.located.map fun x => (x.1, x.2.count?)
  /-- The branches are the same, and of the narrowed selections of each some are dropped. -/
  pruned : List.Forall₂
    (fun b c => b.1 = c.1 ∧ (selectionsOf c.2).Sublist ((selectionsOf b.2).map (·.narrow scope)))
    before.branches after.branches
  retained : ∀ id, id ∈ r.retained ↔ ∃ x ∈ after.located, id ∈ x.2.includedIds
  /-- The selections dropped below the top and those left without controls at the top. -/
  emptied : r.emptied = (before.inner.length - after.inner.length) +
    (after.reviewed.selections.filter (!·.selectsAny)).length
  /-- The branches with selections before and no review after. -/
  skipped : r.skipped = ((before.branches.zip after.branches).filter fun x =>
    !(selectionsOf x.1.2).isEmpty && x.2.2.isNone).map (·.1.1)
  /-- A branch that had selections has no review exactly if it selects no control. -/
  cleared : ∀ x ∈ before.branches.zip after.branches, selectionsOf x.1.2 ≠ [] →
    (x.2.2 = none ↔ ∀ s ∈ selectionsOf x.2.2, s.includedRefs = [])

section Accuracy

variable {scope : IdSet}

/-- What is left of the review of a branch. -/
def remnant (scope : IdSet) (review : Option Review) : Option Review :=
  review.bind fun r => if r.vanishes scope then none else some (r.prune scope)

theorem tailorBranch_review (review : Option Review) (props : Option (List Property)) :
    (tailorBranch scope review props).1 = remnant scope review := by
  cases review with
  | none => rfl
  | some r => simp only [tailorBranch, remnant, Option.bind_some]; split <;> rfl

theorem selectionsOf_remnant (review : Option Review) :
    selectionsOf (remnant scope review) =
      ((selectionsOf review).map (·.narrow scope)).filter (·.selectsAny) := by
  cases review with
  | none => rfl
  | some r =>
      simp only [remnant, Option.bind_some]
      cases gone : r.vanishes scope with
      | false => rfl
      | true =>
          rw [Review.vanishes, Bool.and_eq_true] at gone
          exact (List.isEmpty_iff.mp gone.2).symm

theorem remnant_isNone (r : Review) : (remnant scope (some r)).isNone = r.vanishes scope := by
  simp only [remnant, Option.bind_some]
  split
  · next gone => exact gone.symm
  · next stays => exact (Bool.not_eq_true _ ▸ stays).symm

theorem remnant_eq_none {review : Option Review} (listed : selectionsOf review ≠ []) :
    remnant scope review = none ↔ selectionsOf (remnant scope review) = [] := by
  cases review with
  | none => exact absurd rfl listed
  | some r =>
      have filled : r.selections.isEmpty = false := by simpa [selectionsOf] using listed
      rw [← Option.isNone_iff_eq_none, remnant_isNone, selectionsOf_remnant, Review.vanishes, filled]
      exact List.isEmpty_iff

theorem Activity.tailor_branches (a : Activity) :
    (a.tailor scope).branches = a.branches.map fun b => (b.1, remnant scope b.2) := by
  simp only [Activity.branches, Activity.tailor, Activity.stepList, List.map_cons,
    tailorBranch_review]
  cases a.steps with
  | none => rfl
  | some steps => simp [Step.tailor, tailorBranch_review]

theorem Plan.tailor_branches (p : Plan) :
    (p.tailor scope).branches = p.branches.map fun b => (b.1, remnant scope b.2) := by
  simp only [Plan.branches, Plan.tailor_activities, List.flatMap_map, List.map_flatMap,
    Activity.tailor_branches]

theorem branchEvents_eq (branch : Branch) (review : Option Review) :
    branchEvents scope branch review = narrowedEvents scope branch (selectionsOf review) ++
      if !(selectionsOf review).isEmpty && (remnant scope review).isNone then [.skipped branch]
      else [] := by
  cases review with
  | none => rfl
  | some r =>
      have filled : (!r.selections.isEmpty && r.vanishes scope) = r.vanishes scope := by
        simp only [Review.vanishes, ← Bool.and_assoc, Bool.and_self]
      simp only [branchEvents, selectionsOf, Option.map_some, Option.getD_some, remnant_isNone, filled]

theorem Plan.events_branches (p : Plan) :
    p.events scope = (p.branches.flatMap fun b => branchEvents scope b.1 b.2) ++
      narrowedEvents scope .top p.reviewed.selections := by
  simp only [Plan.events, Plan.branches, Activity.branches, Activity.events, Step.events,
    List.flatMap_assoc, List.flatMap_cons, List.flatMap_map]

def entryOf (scope : IdSet) (x : Location × Selection) : ReportEntry :=
  ⟨x.1, x.2.count?, (x.2.narrow scope).includedIds⟩

theorem entryOf_included_isEmpty (x : Location × Selection) :
    (entryOf scope x).included.isEmpty = !(x.2.narrow scope).selectsAny := by
  rw [Selection.narrow_selectsAny, entryOf, Selection.includedIds, Selection.narrow_includedRefs,
    Bool.not_not, List.isEmpty_map]

theorem entry?_narrowedEvents (branch : Branch) (ss : List Selection) :
    (narrowedEvents scope branch ss).filterMap ScopeEvent.entry? =
      (locate branch ss).map (entryOf scope) := by
  simp only [narrowedEvents, locate, List.mapIdx_eq_zipIdx_map, List.filterMap_map, List.map_map]
  rw [← List.filterMap_eq_map]
  refine List.filterMap_congr fun x _ => ?_
  simp only [Function.comp_apply, ScopeEvent.entry?, entryOf, Selection.outcome,
    Selection.includedIds, Selection.narrow_includedRefs, Selection.count?]

theorem skipped?_narrowedEvents (branch : Branch) (ss : List Selection) :
    (narrowedEvents scope branch ss).filterMap ScopeEvent.skipped? = [] := by
  simp [narrowedEvents, List.mapIdx_eq_zipIdx_map, List.filterMap_eq_nil_iff, ScopeEvent.skipped?]

theorem Plan.report_entries (p : Plan) :
    (p.report scope).entries = p.located.map (entryOf scope) := by
  have inside : ∀ b : Branch × Option Review,
      (branchEvents scope b.1 b.2).filterMap ScopeEvent.entry? =
        (locate b.1 (selectionsOf b.2)).map (entryOf scope) := by
    intro b
    rw [branchEvents_eq, List.filterMap_append, entry?_narrowedEvents]
    split <;> simp [ScopeEvent.entry?]
  simp only [Plan.report, Report.ofEvents, Plan.events_branches, Plan.located,
    List.filterMap_append, List.filterMap_flatMap, entry?_narrowedEvents, inside, List.map_append,
    List.map_flatMap]

theorem Plan.located_selections (p : Plan) :
    p.located.map (·.2) = p.inner ++ p.reviewed.selections := by
  have same : ∀ branch ss, (locate branch ss).map (·.2) = ss := by
    intro branch ss
    simp [locate, List.mapIdx_eq_zipIdx_map, List.map_map, Function.comp_def]
  simp only [Plan.located, Plan.inner, List.map_append, List.map_flatMap, same]

theorem Plan.tailor_inner (p : Plan) :
    (p.tailor scope).inner = (p.inner.map (·.narrow scope)).filter (·.selectsAny) := by
  simp only [Plan.inner, Plan.tailor_branches, List.flatMap_map, selectionsOf_remnant,
    List.map_flatMap, List.filter_flatMap]

theorem Plan.mem_report_retained (p : Plan) (id : String) :
    id ∈ (p.report scope).retained ↔
      ∃ s ∈ p.inner ++ p.reviewed.selections, id ∈ (s.narrow scope).includedIds := by
  rw [Report.retained, IdSet.mem_ofList, Plan.report_entries, ← Plan.located_selections]
  simp only [List.mem_flatMap, List.mem_map, exists_exists_and_eq_and, entryOf]

/-- What narrowing empties is gone, but nothing that still selects a control. -/
theorem Plan.mem_tailor_located (p : Plan) (id : String) :
    (∃ x ∈ (p.tailor scope).located, id ∈ x.2.includedIds) ↔
      ∃ s ∈ p.inner ++ p.reviewed.selections, id ∈ (s.narrow scope).includedIds := by
  have listed : (∃ x ∈ (p.tailor scope).located, id ∈ x.2.includedIds) ↔
      ∃ s ∈ (p.tailor scope).inner ++ (p.tailor scope).reviewed.selections, id ∈ s.includedIds := by
    rw [← Plan.located_selections]
    simp only [List.mem_map, exists_exists_and_eq_and]
  rw [listed, Plan.tailor_inner]
  simp only [Plan.tailor, Review.narrow, List.mem_append, List.mem_filter, List.mem_map]
  constructor
  · rintro ⟨_, ⟨⟨s, member, rfl⟩, _⟩ | ⟨s, member, rfl⟩, selected⟩
    · exact ⟨s, .inl member, selected⟩
    · exact ⟨s, .inr member, selected⟩
  · rintro ⟨s, member | member, selected⟩
    · have kept : (s.narrow scope).selectsAny = true := by
        cases empty : (s.narrow scope).includedRefs with
        | nil => simp [Selection.includedIds, empty] at selected
        | cons c cs => simp [Selection.selectsAny, empty]
      exact ⟨_, .inl ⟨⟨s, member, rfl⟩, kept⟩, selected⟩
    · exact ⟨_, .inr ⟨s, member, rfl⟩, selected⟩

theorem Plan.report_emptied (p : Plan) :
    (p.report scope).emptied = (p.inner.length - (p.tailor scope).inner.length) +
      ((p.tailor scope).reviewed.selections.filter (!·.selectsAny)).length := by
  have inside : p.inner.length - (p.tailor scope).inner.length =
      p.inner.countP fun s => !(s.narrow scope).selectsAny := by
    have parts := p.inner.length_eq_countP_add_countP fun s => (s.narrow scope).selectsAny
    rw [Plan.tailor_inner, ← List.countP_eq_length_filter, List.countP_map]
    simp only [Function.comp_def, Bool.not_eq_true, Bool.decide_eq_false] at parts ⊢
    omega
  have top : ((p.tailor scope).reviewed.selections.filter (!·.selectsAny)).length =
      p.reviewed.selections.countP fun s => !(s.narrow scope).selectsAny := by
    rw [← List.countP_eq_length_filter, Plan.tailor, Review.narrow, List.countP_map]
    rfl
  calc (p.report scope).emptied
      = p.located.countP fun x => !(x.2.narrow scope).selectsAny := by
        rw [Report.emptied, Plan.report_entries, ← List.countP_eq_length_filter, List.countP_map]
        simp only [Function.comp_def, entryOf_included_isEmpty]
    _ = (p.inner ++ p.reviewed.selections).countP fun s => !(s.narrow scope).selectsAny := by
        rw [← Plan.located_selections, List.countP_map]
        rfl
    _ = _ := by rw [List.countP_append, inside, top]

theorem Plan.branches_zip (p : Plan) :
    p.branches.zip (p.tailor scope).branches =
      p.branches.map fun b => (b, (b.1, remnant scope b.2)) := by
  rw [Plan.tailor_branches, List.map_prod_left_eq_zip]

theorem Plan.report_skipped (p : Plan) :
    (p.report scope).skipped = ((p.branches.zip (p.tailor scope).branches).filter fun x =>
      !(selectionsOf x.1.2).isEmpty && x.2.2.isNone).map (·.1.1) := by
  have inside : ∀ b : Branch × Option Review,
      (branchEvents scope b.1 b.2).filterMap ScopeEvent.skipped? =
        if !(selectionsOf b.2).isEmpty && (remnant scope b.2).isNone then [b.1] else [] := by
    intro b
    rw [branchEvents_eq, List.filterMap_append, skipped?_narrowedEvents]
    split <;> rfl
  rw [Plan.branches_zip]
  simp only [Plan.report, Report.ofEvents, Plan.events_branches, List.filterMap_append,
    List.filterMap_flatMap, skipped?_narrowedEvents, List.append_nil, inside]
  induction p.branches with
  | nil => rfl
  | cons b bs ih =>
      rw [List.flatMap_cons, List.map_cons, List.filter_cons, ih]
      split <;> rfl

theorem Plan.report_accurate (p : Plan) :
    (p.report scope).Accurate scope p (p.tailor scope) where
  listed := by
    rw [Plan.report_entries, List.map_map]
    rfl
  pruned := by
    rw [Plan.tailor_branches, List.forall₂_map_right_iff, List.forall₂_same]
    intro b _
    refine ⟨rfl, ?_⟩
    rw [selectionsOf_remnant]
    exact List.filter_sublist
  retained id := (p.mem_report_retained id).trans (p.mem_tailor_located id).symm
  emptied := p.report_emptied
  skipped := p.report_skipped
  cleared := by
    intro x member listed
    rw [Plan.branches_zip] at member
    obtain ⟨b, _, rfl⟩ := List.mem_map.mp member
    rw [remnant_eq_none listed, selectionsOf_remnant]
    constructor
    · intro none s member
      rw [none] at member
      exact absurd member List.not_mem_nil
    · intro bare
      refine List.eq_nil_iff_forall_not_mem.mpr fun s member => ?_
      -- a narrowed selection never includes all, so one that is kept lists a control
      obtain ⟨narrowed, kept⟩ := List.mem_filter.mp member
      obtain ⟨old, _, rfl⟩ := List.mem_map.mp narrowed
      have none := bare _ member
      rw [Selection.narrow_includedRefs] at none
      rw [Selection.narrow_selectsAny, none] at kept
      exact absurd kept Bool.false_ne_true

end Accuracy

/-- The report of a tailoring is accurate, and the walk that an observer watches
collects it and leaves the tailored plan, whether the report observes alone or beside
any other observer, before or after it; the other one is told the same as alone. -/
theorem observed_report_accurate (scope : IdSet) (p : Plan) :
    (p.report scope).Accurate scope p (p.tailor scope) ∧
      (p.walk .reporting scope).run .blank = (p.tailor scope, p.report scope) ∧
      ∀ {σ : Type} (o : Observer σ) (s : σ),
        (p.walk (o.both .reporting) scope).run (s, .blank) =
            (p.tailor scope, ((p.walk o scope).run s).2, p.report scope) ∧
          (p.walk (Observer.reporting.both o) scope).run (.blank, s) =
            (p.tailor scope, p.report scope, ((p.walk o scope).run s).2) := by
  refine ⟨p.report_accurate, ?_, fun o s => ⟨?_, ?_⟩⟩
  · rw [p.walk_tells, reporting_foldl_blank]
  · rw [p.walk_tells, p.walk_tells, both_foldl, reporting_foldl_blank]
  · rw [p.walk_tells, p.walk_tells, both_foldl, reporting_foldl_blank]
end AssessmentPlans
