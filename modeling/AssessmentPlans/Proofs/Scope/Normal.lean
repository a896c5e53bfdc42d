import AssessmentPlans.Proofs.Scope.Report

/-! The normal form of tailored plans. Tailoring to a scope brings every plan into it, and
the plans in it are exactly those that tailoring to the scope leaves as they are. -/
namespace AssessmentPlans

/-- A selection of nothing, or of a list of controls in scope, each once. -/
structure Selection.Normal (scope : IdSet) (s : Selection) : Prop where
  listed : s.includeAll = false
  includes : ∀ cs, s.includes = some cs →
    cs ≠ [] ∧ (cs.map (·.id)).Nodup ∧ ∀ c ∈ cs, c.id ∈ scope

/-- Below the top every selection has its list; at the top it may have none. -/
structure Plan.Normal (scope : IdSet) (p : Plan) : Prop where
  inner : ∀ s ∈ p.inner, s.Normal scope ∧ s.includes ≠ none
  top : ∀ s ∈ p.reviewed.selections, s.Normal scope

variable {scope : IdSet}

/-! Tailored plans are in normal form. -/

theorem Selection.narrow_normal (s : Selection) : (s.narrow scope).Normal scope := by
  refine ⟨rfl, ?_⟩
  intro cs same
  rw [narrow] at same
  split at same
  · cases same
  · next filled =>
    cases same
    have apart := s.keptRefs_pairwise scope
    rw [← List.pairwise_map] at apart
    exact ⟨fun none => filled (List.isEmpty_iff.mpr none), apart, fun c kept => mem_of_mem_keptRefs kept⟩

theorem Selection.includes_ne_none {s : Selection} (listed : s.includeAll = false)
    (selects : s.selectsAny = true) : s.includes ≠ none := by
  intro absent
  rw [selectsAny, listed, includedRefs, absent] at selects
  cases selects

theorem Plan.tailor_normal (p : Plan) : (p.tailor scope).Normal scope := by
  constructor
  · intro s member
    rw [tailor_inner] at member
    obtain ⟨narrowed, selects⟩ := List.mem_filter.mp member
    obtain ⟨t, _, rfl⟩ := List.mem_map.mp narrowed
    exact ⟨t.narrow_normal, Selection.includes_ne_none rfl selects⟩
  · intro s member
    obtain ⟨t, _, rfl⟩ := List.mem_map.mp member
    exact t.narrow_normal

/-! Plans in normal form stay as they are. -/

theorem Selection.Normal.narrow {s : Selection} (h : s.Normal scope) : s.narrow scope = s := by
  obtain ⟨description, props, includeAll, includes, excludes, others⟩ := s
  obtain ⟨rfl, listed⟩ := h
  cases includes with
  | none => rfl
  | some cs =>
      obtain ⟨filled, apart, inside⟩ := listed cs rfl
      have all : cs.filter (fun c => c.id ∈ scope) = cs :=
        List.filter_eq_self.mpr fun c member => decide_eq_true (inside c member)
      have once : distinctBy (·.id) cs = cs := distinctBy_eq_self (List.pairwise_map.mp apart)
      have kept : keptRefs scope ⟨description, props, false, some cs, excludes, others⟩ = cs := by
        rw [keptRefs, if_neg Bool.false_ne_true, includedRefs, Option.getD_some, all, once]
      rw [Selection.narrow, kept, if_neg (mt List.isEmpty_iff.mp filled)]

theorem Selection.Normal.selectsAny {s : Selection} (h : s.Normal scope)
    (listed : s.includes ≠ none) : s.selectsAny = true := by
  obtain ⟨cs, same⟩ := Option.ne_none_iff_exists'.mp listed
  have filled := (h.includes cs same).1
  rw [Selection.selectsAny, includedRefs, same, Option.getD_some, List.isEmpty_eq_false_iff.mpr filled]
  exact Bool.or_true _

theorem map_eq_self {α : Type} {f : α → α} {as : List α} (each : ∀ a ∈ as, f a = a) :
    as.map f = as :=
  (List.map_congr_left each).trans (List.map_id as)

theorem optional_map_eq_self {α : Type} {f : α → α} {as : Option (List α)}
    (each : ∀ a ∈ as.getD [], f a = a) : as.map (·.map f) = as := by
  cases as with
  | none => rfl
  | some as => exact congrArg some (map_eq_self each)

/-- The selections of a branch that is in normal form all survive, so it does not vanish. -/
theorem tailorBranch_of_normal {review : Option Review} (props : Option (List Property))
    (h : ∀ s ∈ selectionsOf review, s.Normal scope ∧ s.includes ≠ none) :
    tailorBranch scope review props = (review, props) := by
  cases review with
  | none => rfl
  | some r =>
      have narrowed : r.selections.map (·.narrow scope) = r.selections :=
        map_eq_self fun s member => (h s member).1.narrow
      have survives : r.surviving scope = r.selections := by
        rw [Review.surviving, narrowed]
        exact List.filter_eq_self.mpr fun s member => (h s member).1.selectsAny (h s member).2
      have stays : r.vanishes scope = false := by
        rw [Review.vanishes, survives, Bool.not_and_self]
      rw [tailorBranch, stays, Review.prune, survives]
      rfl

theorem Step.tailor_of_normal {s : Step}
    (h : ∀ x ∈ selectionsOf s.reviewed, x.Normal scope ∧ x.includes ≠ none) :
    s.tailor scope = s := by
  rw [Step.tailor, tailorBranch_of_normal s.props h]

theorem Activity.tailor_of_normal {a : Activity}
    (h : ∀ b ∈ a.branches, ∀ s ∈ selectionsOf b.2, s.Normal scope ∧ s.includes ≠ none) :
    a.tailor scope = a := by
  obtain ⟨own, others⟩ := List.forall_mem_cons.mp h
  have steps : a.steps.map (·.map (·.tailor scope)) = a.steps := by
    apply optional_map_eq_self
    intro s member
    apply Step.tailor_of_normal
    exact others (.step a.uuid s.uuid, s.reviewed) (List.mem_map.mpr ⟨s, member, rfl⟩)
  rw [Activity.tailor, tailorBranch_of_normal a.props own, steps]

theorem Plan.Normal.tailor {p : Plan} (h : p.Normal scope) : p.tailor scope = p := by
  have activity : ∀ a ∈ p.activities, a.tailor scope = a := by
    intro a member
    apply Activity.tailor_of_normal
    intro b part s listed
    exact h.inner s (List.mem_flatMap.mpr ⟨b, List.mem_flatMap.mpr ⟨a, member, part⟩, listed⟩)
  have definitions : (p.definitions.map fun d =>
      { d with activities := d.activities.map (·.map (·.tailor scope)) }) = p.definitions := by
    rw [Plan.activities] at activity
    cases found : p.definitions with
    | none => rfl
    | some d =>
        rw [found, Option.bind_some] at activity
        rw [Option.map_some, optional_map_eq_self activity]
  have top : p.reviewed.selections.map (·.narrow scope) = p.reviewed.selections :=
    map_eq_self fun s member => (h.top s member).narrow
  rw [Plan.tailor, definitions, Review.narrow, top]

/-- No branch of a plan in normal form is reported as skipped. -/
theorem Plan.Normal.report_skipped {p : Plan} (h : p.Normal scope) :
    (p.report scope).skipped = [] := by
  rw [Plan.report_skipped, h.tailor, List.map_eq_nil_iff, List.filter_eq_nil_iff]
  intro x member
  -- both branches of a pair are the same one, which has a review if it has selections
  rw [List.zip_eq_zipWith, List.zipWith_self] at member
  obtain ⟨b, _, rfl⟩ := List.mem_map.mp member
  cases b.2 <;> simp [selectionsOf]

/-- Every tailored plan is in normal form, and a plan that is tailored to a scope is the same
as before exactly if it was in normal form. -/
theorem tailor_normal_form (scope : IdSet) :
    (∀ p : Plan, (p.tailor scope).Normal scope) ∧
      ∀ q : Plan, q.tailor scope = q ↔ q.Normal scope := by
  refine ⟨Plan.tailor_normal, ?_⟩
  intro q
  constructor
  · intro same
    rw [← same]
    exact q.tailor_normal
  · intro h
    exact h.tailor

end AssessmentPlans
