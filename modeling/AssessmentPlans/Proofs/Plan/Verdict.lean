import AssessmentPlans.Proofs.Plan.Validity
import AssessmentPlans.Proofs.Scope.Report

/-! The verdict on a plan. A plan that follows the rules is accepted with a list of remarks, and
any other is refused for the first rule that it violates, in document order. -/
namespace AssessmentPlans

/-! Violations, each with what comes before it and is in order. -/

/-- The first rule that a selection on a branch violates. -/
inductive Selection.FirstViolation (s : Selection) : Defect → Prop where
  | blank (unnamed : ¬s.NamesControls) : FirstViolation s .blankControl
  | alone (names : s.NamesControls) (none : s.selectsAny = false) (excepts : s.excludedRefs ≠ []) :
      FirstViolation s .exceptionsAlone
  | nothing (names : s.NamesControls) (none : s.selectsAny = false) (bare : s.excludedRefs = []) :
      FirstViolation s .selectsNothing

/-- The first one by the review of a branch, under the properties of its owner. -/
inductive Review.FirstViolation (branch : Branch) (props : Option (List Property)) (r : Review) :
    Place → Defect → Prop where
  | skipped (marked : Property.isSkipped props = true) :
      FirstViolation branch props r (.branch branch) .skippedButSelecting
  | selection {before after : List Selection} {s : Selection} {defect : Defect}
      (active : Property.isSkipped props = false) (here : r.selections = before ++ s :: after)
      (sound : ∀ t ∈ before, t.NamesControls ∧ t.selectsAny = true) (h : s.FirstViolation defect) :
      FirstViolation branch props r (.selection ⟨branch, before.length⟩) defect

inductive Step.FirstViolation (owner : String) (s : Step) : Place → Defect → Prop where
  | uuid (malformed : Uuid.isValid s.uuid = false) :
      FirstViolation owner s (.step owner s.uuid) (.notUuid s.uuid)
  | reviewed {r : Review} {place : Place} {defect : Defect} (valid : Uuid.isValid s.uuid = true)
      (here : s.reviewed = some r)
      (h : r.FirstViolation (.step owner s.uuid) s.props place defect) :
      FirstViolation owner s place defect

inductive Activity.FirstViolation (a : Activity) : Place → Defect → Prop where
  | uuid (malformed : Uuid.isValid a.uuid = false) :
      FirstViolation a (.activity a.uuid) (.notUuid a.uuid)
  | related {r : Review} {place : Place} {defect : Defect} (valid : Uuid.isValid a.uuid = true)
      (here : a.related = some r) (h : r.FirstViolation (.activity a.uuid) a.props place defect) :
      FirstViolation a place defect
  | step {before after : List Step} {s : Step} {place : Place} {defect : Defect}
      (valid : Uuid.isValid a.uuid = true) (fits : ∀ r, a.related = some r → r.FitsBranch a.props)
      (here : a.stepList = before ++ s :: after) (sound : ∀ t ∈ before, t.Valid)
      (h : s.FirstViolation a.uuid place defect) : FirstViolation a place defect

/-- The first one of a plan. At the top only its names count. -/
inductive Plan.FirstViolation (p : Plan) : Place → Defect → Prop where
  | uuid (malformed : Uuid.isValid p.uuid = false) : FirstViolation p .planUuid (.notUuid p.uuid)
  | title (valid : Uuid.isValid p.uuid = true) (blank : Text.Blank p.metadata.title) :
      FirstViolation p .planTitle .blankTitle
  | activity {before after : List Activity} {a : Activity} {place : Place} {defect : Defect}
      (valid : Uuid.isValid p.uuid = true) (titled : ¬Text.Blank p.metadata.title)
      (here : p.activities = before ++ a :: after) (sound : ∀ b ∈ before, b.Valid)
      (h : a.FirstViolation place defect) : FirstViolation p place defect
  | top {before after : List Selection} {s : Selection} (valid : Uuid.isValid p.uuid = true)
      (titled : ¬Text.Blank p.metadata.title) (activities : ∀ a ∈ p.activities, a.Valid)
      (here : p.reviewed.selections = before ++ s :: after) (sound : ∀ t ∈ before, t.NamesControls)
      (unnamed : ¬s.NamesControls) :
      FirstViolation p (.selection ⟨.top, before.length⟩) .blankControl

/-- What is remarked of a selection at the top that includes no control. -/
def Selection.remarks (location : Location) (s : Selection) : List Issue :=
  if s.selectsAny then []
  else if s.excludedRefs = [] then [⟨location.text, Defect.selectsNothing.message⟩]
  else [⟨location.text, Defect.exceptionsAlone.message⟩,
    ⟨location.text, Defect.selectsNothing.message⟩]

/-- What is remarked of a branch whose review is there and has no selections. -/
def Branch.remarks (branch : Branch) (review : Option Review) : List Issue :=
  if review.any (·.selections.isEmpty) then [⟨branch.text, Defect.noSelections.message⟩] else []

/-- What is remarked of a plan, in document order. -/
def Plan.remarks (p : Plan) : List Issue :=
  (p.branches.flatMap fun b => b.1.remarks b.2) ++
    (locate .top p.reviewed.selections).flatMap fun x => x.2.remarks x.1

/-- A finding about an empty list of selections on a branch, or about a selection at the top that
includes no control. -/
def Finding.Minor (f : Finding) : Prop :=
  (∃ branch, f.place = .branch branch ∧ f.defect = .noSelections) ∨
    ∃ n, f.place = .selection ⟨.top, n⟩ ∧ (f.defect = .exceptionsAlone ∨ f.defect = .selectsNothing)

/-! The first error among findings. -/

section FirstError

variable {place : Place} {defect : Defect}

/-- The first finding that is an error is of this defect, and at this place. -/
def FirstError (fs : List Finding) (place : Place) (defect : Defect) : Prop :=
  fs.find? (·.severity = .error) = some ⟨.error, place, defect⟩

theorem find?_eq_none_iff {fs : List Finding} :
    fs.find? (·.severity = .error) = none ↔ Harmless fs := by
  rw [List.find?_eq_none]
  simp only [decide_eq_true_eq]
  rfl

theorem firstError_append {fs gs : List Finding} : FirstError (fs ++ gs) place defect ↔
    FirstError fs place defect ∨ Harmless fs ∧ FirstError gs place defect := by
  rw [FirstError, FirstError, FirstError, List.find?_append, ← find?_eq_none_iff]
  cases fs.find? (·.severity = .error) with
  | none => simp
  | some f => simp

theorem firstError_nil : ¬FirstError [] place defect := nofun

theorem firstError_error {own : Place} {d : Defect} :
    FirstError [⟨.error, own, d⟩] place defect ↔ place = own ∧ defect = d := by
  rw [FirstError]
  simp [eq_comm]

theorem firstError_ite {c : Prop} [Decidable c] {own : Place} {d : Defect} :
    FirstError (if c then [⟨.error, own, d⟩] else []) place defect ↔
      c ∧ place = own ∧ defect = d := by
  split
  · next holds => exact firstError_error.trans (and_iff_right holds).symm
  · next fails => exact iff_of_false firstError_nil fun h => fails h.1

/-- Findings that are harmless do not count. -/
theorem firstError_of_harmless {fs : List Finding} (h : Harmless fs) :
    ¬FirstError fs place defect := by
  intro first
  rw [FirstError, find?_eq_none_iff.mpr h] at first
  cases first

theorem firstError_flatMap {α : Type} {xs : List α} {find : α → List Finding} :
    FirstError (xs.flatMap find) place defect ↔ ∃ before a after, xs = before ++ a :: after ∧
      (∀ b ∈ before, Harmless (find b)) ∧ FirstError (find a) place defect := by
  induction xs with
  | nil =>
      refine iff_of_false firstError_nil ?_
      intro ⟨before, a, after, here, _⟩
      cases before <;> cases here
  | cons x xs ih =>
      rw [List.flatMap_cons, firstError_append, ih]
      constructor
      · intro h
        rcases h with h | ⟨sound, before, a, after, rfl, others, h⟩
        · exact ⟨[], x, xs, rfl, List.forall_mem_nil _, h⟩
        · exact ⟨x :: before, a, after, rfl, List.forall_mem_cons.mpr ⟨sound, others⟩, h⟩
      · intro ⟨before, a, after, here, sound, h⟩
        cases before with
        | nil =>
            cases here
            exact .inl h
        | cons y before =>
            cases here
            obtain ⟨own, others⟩ := List.forall_mem_cons.mp sound
            exact .inr ⟨own, before, a, after, rfl, others, h⟩

theorem firstError_uuidFindings {own : Place} {uuid : String} :
    FirstError (uuidFindings own uuid) place defect ↔
      Uuid.isValid uuid = false ∧ place = own ∧ defect = .notUuid uuid := by
  unfold uuidFindings
  split
  · next valid => exact iff_of_false firstError_nil fun h => by simp [valid] at h
  · next invalid =>
      rw [firstError_error, Bool.not_eq_true] at *
      exact (and_iff_right invalid).symm

/-- Of the errors for blank names the first stands for all. -/
theorem Selection.firstError_unnamed {location : Location} {s : Selection} :
    FirstError (((s.includedRefs ++ s.excludedRefs).filter fun c => Text.Blank c.id).map
        fun _ => ⟨.error, .selection location, .blankControl⟩) place defect ↔
      ¬s.NamesControls ∧ place = .selection location ∧ defect = .blankControl := by
  rw [← @unnamed_harmless location s]
  generalize List.filter _ _ = blanks
  cases blanks with
  | nil => exact iff_of_false firstError_nil fun h => h.1 harmless_nil
  | cons c cs => simp [FirstError, Harmless, eq_comm]

theorem Selection.firstError_findings {location : Location} (inner : location.branch ≠ .top)
    {s : Selection} : FirstError (s.findings location) place defect ↔
      place = .selection location ∧ s.FirstViolation defect := by
  rw [findings, firstError_append, firstError_unnamed, unnamed_harmless, if_neg inner]
  constructor
  · intro h
    rcases h with ⟨unnamed, here, rfl⟩ | ⟨names, h⟩
    · exact ⟨here, .blank unnamed⟩
    · split at h
      · exact absurd h firstError_nil
      · next none =>
          rw [Bool.not_eq_true] at none
          split at h
          · next bare =>
              obtain ⟨here, rfl⟩ := firstError_error.mp h
              exact ⟨here, .nothing names none (List.isEmpty_iff.mp bare)⟩
          · next excepts =>
              rcases firstError_append.mp h with h | ⟨calm, _⟩
              · obtain ⟨here, rfl⟩ := firstError_error.mp h
                exact ⟨here, .alone names none (mt List.isEmpty_iff.mpr excepts)⟩
              · exact absurd rfl (harmless_singleton.mp calm)
  · intro told
    obtain ⟨here, h⟩ := told
    cases h with
    | blank unnamed => exact .inl ⟨unnamed, here, rfl⟩
    | alone names none excepts =>
        refine .inr ⟨names, ?_⟩
        rw [if_neg (Bool.not_eq_true _ ▸ none), if_neg (mt List.isEmpty_iff.mp excepts)]
        exact firstError_append.mpr (.inl (firstError_error.mpr ⟨here, rfl⟩))
    | nothing names none bare =>
        refine .inr ⟨names, ?_⟩
        rw [if_neg (Bool.not_eq_true _ ▸ none), if_pos (List.isEmpty_iff.mpr bare)]
        exact firstError_error.mpr ⟨here, rfl⟩

theorem Selection.firstError_findings_top {location : Location} (top : location.branch = .top)
    {s : Selection} : FirstError (s.findings location) place defect ↔
      ¬s.NamesControls ∧ place = .selection location ∧ defect = .blankControl := by
  have warned : Harmless (if s.selectsAny = true then [] else
      (if s.excludedRefs.isEmpty then []
        else [⟨.warning, .selection location, .exceptionsAlone⟩]) ++
      [⟨.warning, .selection location, .selectsNothing⟩]) := by
    split
    · exact harmless_nil
    · refine harmless_append.mpr ⟨?_, harmless_singleton.mpr nofun⟩
      split
      · exact harmless_nil
      · exact harmless_singleton.mpr nofun
  rw [findings, firstError_append, firstError_unnamed, if_pos top]
  exact or_iff_left fun h => firstError_of_harmless warned h.2

theorem selectionFindings_eq (branch : Branch) (ss : List Selection) :
    selectionFindings branch ss = ss.zipIdx.flatMap fun x => x.1.findings ⟨branch, x.2⟩ := by
  rw [selectionFindings, List.mapIdx_eq_zipIdx_map, ← List.flatMap_def]

theorem firstError_selectionFindings {branch : Branch} {ss : List Selection} :
    FirstError (selectionFindings branch ss) place defect ↔
      ∃ before s after, ss = before ++ s :: after ∧
        (∀ t ∈ before, t.NamesControls ∧ (branch ≠ .top → t.selectsAny = true)) ∧
        FirstError (s.findings ⟨branch, before.length⟩) place defect := by
  rw [selectionFindings_eq, firstError_flatMap]
  constructor
  · intro ⟨before, x, after, here, sound, h⟩
    -- the number of a selection is how many stand before it
    obtain ⟨before, rest, rfl, rfl, tail⟩ := List.zipIdx_eq_append_iff.mp here
    obtain ⟨s, after, rfl, rfl, rfl⟩ := List.zipIdx_eq_cons_iff.mp tail.symm
    rw [Nat.zero_add] at h
    refine ⟨before, s, after, rfl, ?_, h⟩
    intro t member
    rw [← List.zipIdx_map_fst 0 before] at member
    obtain ⟨x, numbered, rfl⟩ := List.mem_map.mp member
    exact Selection.findings_harmless.mp (sound x numbered)
  · intro ⟨before, s, after, here, sound, h⟩
    refine ⟨before.zipIdx, (s, before.length), after.zipIdx (before.length + 1), ?_, ?_, h⟩
    · rw [here, List.zipIdx_append, Nat.zero_add, List.zipIdx_cons]
    · intro x member
      exact Selection.findings_harmless.mpr (sound x.1 (List.fst_mem_of_mem_zipIdx member))

theorem Review.firstError_findings {branch : Branch} (inner : branch ≠ .top)
    {props : Option (List Property)} {review : Option Review} :
    FirstError (branchFindings branch (Property.isSkipped props) review) place defect ↔
      ∃ r, review = some r ∧ r.FirstViolation branch props place defect := by
  cases review with
  | none =>
      refine iff_of_false firstError_nil ?_
      rintro ⟨_, absent, _⟩
      cases absent
  | some r =>
      have each : FirstError (selectionFindings branch r.selections) place defect ↔
          ∃ before s after, r.selections = before ++ s :: after ∧
            (∀ t ∈ before, t.NamesControls ∧ t.selectsAny = true) ∧
            place = .selection ⟨branch, before.length⟩ ∧ s.FirstViolation defect := by
        rw [firstError_selectionFindings]
        simp only [inner, ne_eq, not_false_eq_true, true_implies, Selection.firstError_findings]
      have empty : Harmless (if r.selections.isEmpty then
          [(⟨.warning, .branch branch, .noSelections⟩ : Finding)] else []) :=
        harmless_ite.mpr (by simp)
      have quiet : ¬FirstError _ place defect := firstError_of_harmless empty
      rw [branchFindings, firstError_append, firstError_append, firstError_ite, harmless_append,
        harmless_ite, each]
      simp only [quiet, and_false, or_false, true_implies, Bool.not_eq_true]
      constructor
      · intro h
        refine ⟨r, rfl, ?_⟩
        rcases h with ⟨marked, rfl, rfl⟩ | ⟨⟨active, _⟩, before, s, after, here, sound, rfl, h⟩
        · exact .skipped marked
        · exact .selection active here sound h
      · intro told
        obtain ⟨_, same, h⟩ := told
        cases same
        cases h with
        | skipped marked => exact .inl ⟨marked, rfl, rfl⟩
        | selection active here sound h =>
            exact .inr ⟨⟨active, empty⟩, _, _, _, here, sound, rfl, h⟩

theorem Step.firstError_findings {owner : String} {s : Step} :
    FirstError (s.findings owner) place defect ↔ s.FirstViolation owner place defect := by
  rw [findings, firstError_append, firstError_uuidFindings, uuidFindings_harmless,
    Review.firstError_findings Branch.noConfusion]
  constructor
  · intro h
    rcases h with ⟨malformed, rfl, rfl⟩ | ⟨valid, r, here, h⟩
    · exact .uuid malformed
    · exact .reviewed valid here h
  · intro h
    cases h with
    | uuid malformed => exact .inl ⟨malformed, rfl, rfl⟩
    | reviewed valid here h => exact .inr ⟨valid, _, here, h⟩

theorem Activity.firstError_findings {a : Activity} :
    FirstError a.findings place defect ↔ a.FirstViolation place defect := by
  rw [findings, firstError_append, firstError_append, firstError_uuidFindings, harmless_append,
    uuidFindings_harmless, Review.firstError_findings Branch.noConfusion,
    branchFindings_harmless Branch.noConfusion, firstError_flatMap]
  simp only [Step.firstError_findings, Step.findings_harmless]
  constructor
  · intro h
    rcases h with (⟨malformed, rfl, rfl⟩ | ⟨valid, r, here, h⟩) |
      ⟨⟨valid, fits⟩, before, s, after, here, sound, h⟩
    · exact .uuid malformed
    · exact .related valid here h
    · exact .step valid fits here sound h
  · intro h
    cases h with
    | uuid malformed => exact .inl (.inl ⟨malformed, rfl, rfl⟩)
    | related valid here h => exact .inl (.inr ⟨valid, _, here, h⟩)
    | step valid fits here sound h => exact .inr ⟨⟨valid, fits⟩, _, _, _, here, sound, h⟩

theorem Plan.firstError_findings {p : Plan} :
    FirstError p.findings place defect ↔ p.FirstViolation place defect := by
  rw [findings, firstError_append, firstError_append, firstError_append, firstError_uuidFindings,
    firstError_ite, harmless_append, uuidFindings_harmless, harmless_append, harmless_append,
    uuidFindings_harmless, harmless_ite, firstError_flatMap, harmless_flatMap,
    firstError_selectionFindings]
  simp only [Activity.firstError_findings, Activity.findings_harmless, true_implies, ne_eq,
    not_true_eq_false, false_implies, and_true, Selection.firstError_findings_top]
  constructor
  · intro h
    rcases h with ((⟨malformed, rfl, rfl⟩ | ⟨valid, blank, rfl, rfl⟩) |
      ⟨⟨valid, titled⟩, before, a, after, here, sound, h⟩) |
      ⟨⟨⟨valid, titled⟩, activities⟩, before, s, after, here, sound, unnamed, rfl, rfl⟩
    · exact .uuid malformed
    · exact .title valid blank
    · exact .activity valid titled here sound h
    · exact .top valid titled activities here sound unnamed
  · intro h
    cases h with
    | uuid malformed => exact .inl (.inl (.inl ⟨malformed, rfl, rfl⟩))
    | title valid blank => exact .inl (.inl (.inr ⟨valid, blank, rfl, rfl⟩))
    | activity valid titled here sound h =>
        exact .inl (.inr ⟨⟨valid, titled⟩, _, _, _, here, sound, h⟩)
    | top valid titled activities here sound unnamed =>
        exact .inr ⟨⟨⟨valid, titled⟩, activities⟩, _, _, _, here, sound, unnamed, rfl, rfl⟩

end FirstError

/-! What is only remarked. -/

theorem issuesOf_flatMap {α : Type} (severity : Severity) (xs : List α) (find : α → List Finding) :
    issuesOf severity (xs.flatMap find) = xs.flatMap fun x => issuesOf severity (find x) := by
  induction xs with
  | nil => rfl
  | cons x xs ih => rw [List.flatMap_cons, issuesOf_append, ih, List.flatMap_cons]

theorem uuidFindings_remarks (place : Place) (uuid : String) :
    issuesOf .warning (uuidFindings place uuid) = [] := by
  unfold uuidFindings
  split <;> rfl

theorem Selection.findings_remarks (location : Location) (s : Selection) :
    issuesOf .warning (s.findings location) =
      if location.branch = .top then s.remarks location else [] := by
  have unnamed : issuesOf .warning (((s.includedRefs ++ s.excludedRefs).filter fun c =>
      Text.Blank c.id).map fun _ => ⟨.error, .selection location, .blankControl⟩) = [] := by
    rw [issuesOf, List.map_eq_nil_iff, List.filter_map, List.map_eq_nil_iff]
    exact List.filter_eq_nil_iff.mpr fun c _ => by simp
  rw [findings, issuesOf_append, unnamed, List.nil_append, remarks]
  by_cases top : location.branch = .top
  · rw [if_pos top, if_pos top]
    simp only [List.isEmpty_iff]
    split
    · rfl
    · split <;> rfl
  · rw [if_neg top, if_neg top]
    split
    · rfl
    · split <;> rfl

theorem selectionFindings_remarks (branch : Branch) (ss : List Selection) :
    issuesOf .warning (selectionFindings branch ss) =
      if branch = .top then (locate .top ss).flatMap fun x => x.2.remarks x.1 else [] := by
  rw [selectionFindings_eq, issuesOf_flatMap]
  simp only [Selection.findings_remarks]
  by_cases top : branch = .top
  · subst top
    rw [if_pos rfl, locate, List.mapIdx_eq_zipIdx_map, List.flatMap_map]
    rfl
  · simp only [if_neg top]
    exact List.flatMap_eq_nil_iff.mpr fun _ _ => rfl

theorem branchFindings_remarks (branch : Branch) (inner : branch ≠ .top) (skipped : Bool)
    (review : Option Review) :
    issuesOf .warning (branchFindings branch skipped review) = branch.remarks review := by
  cases review with
  | none => rfl
  | some r =>
      rw [branchFindings, issuesOf_append, issuesOf_append, selectionFindings_remarks, if_neg inner,
        List.append_nil, Branch.remarks, Option.any_some]
      cases skipped <;> cases r.selections.isEmpty <;> rfl

theorem Step.findings_remarks (owner : String) (s : Step) :
    issuesOf .warning (s.findings owner) = (Branch.step owner s.uuid).remarks s.reviewed := by
  rw [findings, issuesOf_append, uuidFindings_remarks, List.nil_append]
  exact branchFindings_remarks (.step owner s.uuid) Branch.noConfusion _ _

theorem Activity.findings_remarks (a : Activity) :
    issuesOf .warning a.findings = a.branches.flatMap fun b => b.1.remarks b.2 := by
  rw [findings, issuesOf_append, issuesOf_append, uuidFindings_remarks, List.nil_append,
    branchFindings_remarks (.activity a.uuid) Branch.noConfusion, issuesOf_flatMap, branches, List.flatMap_cons,
    List.flatMap_map]
  simp only [Step.findings_remarks]

theorem Plan.issues_warnings (p : Plan) : p.issues.warnings = p.remarks := by
  have title : issuesOf .warning (if Text.Blank p.metadata.title then
      [⟨.error, .planTitle, .blankTitle⟩] else []) = [] := by
    split <;> rfl
  show issuesOf .warning p.findings = p.remarks
  rw [findings, issuesOf_append, issuesOf_append, issuesOf_append, uuidFindings_remarks, title,
    List.nil_append, List.nil_append, issuesOf_flatMap, selectionFindings_remarks, if_pos rfl,
    remarks, branches, List.flatMap_assoc]
  simp only [Activity.findings_remarks]

/-! Errors are told from remarks by what they are about. -/

/-- The findings that are not minor are the errors. -/
def Graded (fs : List Finding) : Prop := ∀ f ∈ fs, f.severity ≠ .error ↔ f.Minor

theorem graded_append {fs gs : List Finding} : Graded (fs ++ gs) ↔ Graded fs ∧ Graded gs :=
  List.forall_mem_append

theorem graded_flatMap {α : Type} {xs : List α} {find : α → List Finding}
    (h : ∀ x ∈ xs, Graded (find x)) : Graded (xs.flatMap find) := by
  intro f member
  obtain ⟨x, source, found⟩ := List.mem_flatMap.mp member
  exact h x source f found

theorem graded_ite {c : Prop} [Decidable c] {f : Finding} (h : f.severity ≠ .error ↔ f.Minor) :
    Graded (if c then [f] else []) := by
  split
  · exact List.forall_mem_singleton.mpr h
  · exact List.forall_mem_nil _

theorem uuidFindings_graded {place : Place} {uuid : String} :
    Graded (uuidFindings place uuid) := by
  unfold uuidFindings
  split
  · exact List.forall_mem_nil _
  · exact List.forall_mem_singleton.mpr (by simp [Finding.Minor])

/-- Only at the top is an empty selection a minor matter. -/
theorem emptySelection_graded {location : Location} {defect : Defect}
    (empty : defect = .exceptionsAlone ∨ defect = .selectsNothing) :
    (if location.branch = .top then Severity.warning else .error) ≠ .error ↔
      Finding.Minor ⟨if location.branch = .top then .warning else .error, .selection location,
        defect⟩ := by
  have place : (∃ n, Place.selection location = .selection ⟨.top, n⟩) ↔ location.branch = .top := by
    constructor
    · intro ⟨n, here⟩
      cases here
      rfl
    · intro top
      exact ⟨location.index, by rw [← top]⟩
  simp only [Finding.Minor, reduceCtorEq, false_and, exists_false, false_or, empty, and_true, place]
  split
  · next top => exact iff_of_true nofun top
  · next inner => exact iff_of_false (fun h => h rfl) inner

theorem Selection.findings_graded (location : Location) (s : Selection) :
    Graded (s.findings location) := by
  refine graded_append.mpr ⟨?_, ?_⟩
  · intro f member
    obtain ⟨c, _, rfl⟩ := List.mem_map.mp member
    simp [Finding.Minor]
  · split
    · exact List.forall_mem_nil _
    · refine graded_append.mpr ⟨?_, ?_⟩
      on_goal 2 => exact List.forall_mem_singleton.mpr (emptySelection_graded (.inr rfl))
      split
      · exact List.forall_mem_nil _
      · exact List.forall_mem_singleton.mpr (emptySelection_graded (.inl rfl))

theorem selectionFindings_graded {branch : Branch} {ss : List Selection} :
    Graded (selectionFindings branch ss) := by
  rw [selectionFindings_eq]
  exact graded_flatMap fun x _ => x.1.findings_graded _

theorem branchFindings_graded {branch : Branch} {skipped : Bool} {review : Option Review} :
    Graded (branchFindings branch skipped review) := by
  cases review with
  | none => exact List.forall_mem_nil _
  | some r =>
      refine graded_append.mpr ⟨graded_append.mpr ⟨graded_ite ?_, graded_ite ?_⟩, ?_⟩
      · simp [Finding.Minor]
      · simp [Finding.Minor]
      · exact selectionFindings_graded

theorem Plan.findings_graded (p : Plan) : Graded p.findings := by
  refine graded_append.mpr ⟨graded_append.mpr ⟨graded_append.mpr ⟨uuidFindings_graded, ?_⟩, ?_⟩, ?_⟩
  · exact graded_ite (by simp [Finding.Minor])
  · refine graded_flatMap fun a _ => graded_append.mpr ⟨?_, ?_⟩
    · exact graded_append.mpr ⟨uuidFindings_graded, branchFindings_graded⟩
    · exact graded_flatMap fun s _ => graded_append.mpr ⟨uuidFindings_graded, branchFindings_graded⟩
  · exact selectionFindings_graded

/-! The fault is the first error. -/

theorem Issues.verdict_eq_error {is : Issues} {fault : PlanFault} : is.verdict = .error fault ↔
    ∃ i, is.errors.head? = some i ∧ fault = .invalid i.message i.path := by
  unfold verdict
  cases is.errors with
  | nil => exact iff_of_false nofun nofun
  | cons first rest => simp [eq_comm]

theorem Plan.issues_errors_head (p : Plan) : p.issues.errors.head? =
    (p.findings.find? (·.severity = .error)).map (·.issue) := by
  rw [← List.head?_filter, ← List.head?_map]
  rfl

theorem Plan.validate_eq_error {p : Plan} {fault : PlanFault} : p.validate = .error fault ↔
    ∃ place defect, p.FirstViolation place defect ∧ fault = .invalid defect.message place.text := by
  have unchecked : p.validate = .error fault ↔ p.issues.verdict = .error fault := by
    unfold validate
    cases p.issues.verdict with
    | error f =>
        constructor
        · intro h
          cases h
          rfl
        · intro h
          cases h
          rfl
    | ok u =>
        refine iff_of_false ?_ ?_
        · intro h
          cases h
        · intro h
          cases h
  rw [unchecked, Issues.verdict_eq_error, issues_errors_head]
  simp only [← firstError_findings, FirstError, Option.map_eq_some_iff]
  constructor
  · intro failed
    obtain ⟨i, ⟨f, first, told⟩, same⟩ := failed
    have grave : f.severity = .error := by
      simpa only [decide_eq_true_eq] using List.find?_some first
    refine ⟨f.place, f.defect, ?_, ?_⟩
    · rw [first, ← grave]
    · rw [same, ← told]
      rfl
  · intro violated
    obtain ⟨place, defect, first, same⟩ := violated
    exact ⟨_, ⟨_, first, rfl⟩, same⟩

/-- A plan is accepted exactly when it is valid, and then with the remarks on it. Else the fault
tells of its first violation. What is remarked makes no plan invalid, and all else does. -/
theorem Plan.validate_decides (p : Plan) :
    (∀ is, p.validate = .ok is ↔ p.Valid ∧ is = ⟨[], p.remarks⟩) ∧
    (∀ fault, p.validate = .error fault ↔ ∃ place defect,
      p.FirstViolation place defect ∧ fault = .invalid defect.message place.text) ∧
    ((∀ f ∈ p.findings, f.Minor) ↔ p.Valid) := by
  refine ⟨?_, fun fault => validate_eq_error, ?_⟩
  · intro is
    constructor
    · intro h
      have valid : p.Valid := valid_of_validate h
      rw [valid.validate] at h
      cases h
      refine ⟨valid, ?_⟩
      rw [← p.issues_warnings, ← issues_errors_eq_nil.mpr valid]
    · intro ⟨valid, same⟩
      rw [valid.validate, same, ← p.issues_warnings, ← issues_errors_eq_nil.mpr valid]
  · rw [← findings_harmless]
    exact forall₂_congr fun f member => (p.findings_graded f member).symm

end AssessmentPlans
