import AssessmentPlans.Proofs.Scope.Normal

/-! Tailoring to the same scope once more. Nothing is left to change, and the second report
says so: it has the entries of the first one for the selections that are still there, each at
the place where it is now. -/
namespace AssessmentPlans

/-- The entry for a selection that lists just these controls before and after. -/
def ReportEntry.settled (branch : Branch) (index : Nat) (ids : List String) : ReportEntry :=
  ⟨⟨branch, index⟩, some ids.length, ids⟩

/-- The entry with a number of its own, for a selection that is as it became. -/
def ReportEntry.again (index : Nat) (e : ReportEntry) : ReportEntry :=
  .settled e.location.branch index e.included

/-- What an entry tells apart from its number. -/
def ReportEntry.content (e : ReportEntry) : Branch × Option Nat × List String :=
  (e.location.branch, e.before, e.included)

/-- Entries for so many selections of a place, in order. -/
def EntriesOf (branch : Branch) (count : Nat) (es : List ReportEntry) : Prop :=
  es.map (·.location) = (List.range count).map (⟨branch, ·⟩)

/-- What a second report says of a plan after the first one. -/
structure Report.Repeated (p : Plan) (first second : Report) : Prop where
  /-- Place by place below the top, the entries with a control are there again and are numbered
  anew; at the top all of them are. -/
  entries : ∃ (groups : List (List ReportEntry)) (top : List ReportEntry),
    List.Forall₂ (fun b es => EntriesOf b.1 (selectionsOf b.2).length es) p.branches groups ∧
    EntriesOf .top p.reviewed.selections.length top ∧
    first.entries = groups.flatten ++ top ∧
    second.entries =
      groups.flatMap (fun es => (es.filter (·.included ≠ [])).mapIdx ReportEntry.again) ++
        top.mapIdx ReportEntry.again
  /-- But for their numbers, the entries are those of the first report at the top or with a
  control, in the same order. -/
  kept : second.entries.map (·.content) =
    (first.entries.filter fun e => e.location.branch = .top ∨ e.included ≠ []).map fun e =>
      (e.location.branch, some e.included.length, e.included)
  skipped : second.skipped = []
  retained : second.retained = first.retained
  emptied : ∀ e ∈ second.entries, e.included = [] → e.location.branch = .top

/-- What does not depend on the numbers of items. -/
theorem map_zipIdx_fst {α β : Type} (f : α → β) (as : List α) :
    (as.zipIdx.map fun x => f x.1) = as.map f := by
  have items : as.zipIdx.map Prod.fst = as := List.zipIdx_map_fst 0 as
  conv_rhs => rw [← items, List.map_map]
  rfl

section Entries

variable {scope : IdSet} {branch : Branch} {ss : List Selection} {es : List ReportEntry}

/-- The entries of a report for the selections of a place. -/
def entriesAt (scope : IdSet) (branch : Branch) (ss : List Selection) : List ReportEntry :=
  (locate branch ss).map (entryOf scope)

theorem entriesAt_eq (scope : IdSet) (branch : Branch) (ss : List Selection) :
    entriesAt scope branch ss = ss.zipIdx.map fun x => entryOf scope (⟨branch, x.2⟩, x.1) := by
  rw [entriesAt, locate, List.mapIdx_eq_zipIdx_map, List.map_map]
  rfl

theorem entriesAt_locations : EntriesOf branch ss.length (entriesAt scope branch ss) := by
  rw [EntriesOf, entriesAt_eq, List.map_map, List.range_eq_range', ← List.zipIdx_map_snd 0 ss,
    List.map_map]
  rfl

theorem EntriesOf.at_branch {count : Nat} (h : EntriesOf branch count es) {e : ReportEntry}
    (member : e ∈ es) : e.location.branch = branch := by
  have place : e.location ∈ es.map (·.location) := List.mem_map_of_mem member
  rw [h] at place
  obtain ⟨n, _, here⟩ := List.mem_map.mp place
  rw [← here]

theorem entriesAt_included : (entriesAt scope branch ss).map (·.included) =
    ss.map fun s => (s.narrow scope).includedIds := by
  rw [entriesAt_eq, List.map_map]
  exact map_zipIdx_fst (fun s : Selection => (s.narrow scope).includedIds) ss

theorem mapIdx_again (own : ∀ e ∈ es, e.location.branch = branch) :
    es.mapIdx ReportEntry.again =
      (es.map (·.included)).mapIdx (ReportEntry.settled branch) := by
  rw [List.mapIdx_eq_zipIdx_map, List.mapIdx_eq_zipIdx_map, List.zipIdx_map, List.map_map]
  apply List.map_congr_left
  intro x member
  show ReportEntry.settled x.1.location.branch x.2 x.1.included = _
  rw [own x.1 (List.fst_mem_of_mem_zipIdx member)]
  rfl

/-- What a report says of narrowed selections. -/
theorem entriesAt_narrowed : entriesAt scope branch (ss.map (·.narrow scope)) =
    (ss.map fun s => (s.narrow scope).includedIds).mapIdx (ReportEntry.settled branch) := by
  rw [entriesAt_eq, List.zipIdx_map, List.map_map, List.mapIdx_eq_zipIdx_map, List.zipIdx_map,
    List.map_map]
  apply List.map_congr_left
  intro x _
  have same : (x.1.narrow scope).narrow scope = x.1.narrow scope := x.1.narrow_normal.narrow
  have counted : (x.1.narrow scope).count? = some (x.1.narrow scope).includedIds.length := by
    rw [Selection.includedIds, List.length_map]
    rfl
  show entryOf scope (⟨branch, x.2⟩, x.1.narrow scope) = _
  rw [entryOf, same, counted]
  rfl

theorem entriesAt_again : entriesAt scope branch (ss.map (·.narrow scope)) =
    (entriesAt scope branch ss).mapIdx ReportEntry.again := by
  rw [entriesAt_narrowed, mapIdx_again fun e => entriesAt_locations.at_branch, entriesAt_included]

/-- The selections that a branch keeps are those whose entries name a control. -/
theorem entriesAt_pruned :
    entriesAt scope branch ((ss.map (·.narrow scope)).filter (·.selectsAny)) =
      ((entriesAt scope branch ss).filter (·.included ≠ [])).mapIdx ReportEntry.again := by
  have own : ∀ e ∈ (entriesAt scope branch ss).filter (·.included ≠ []),
      e.location.branch = branch := by
    intro e member
    exact entriesAt_locations.at_branch (List.mem_of_mem_filter member)
  have named : ((entriesAt scope branch ss).filter (·.included ≠ [])).map (·.included) =
      ((entriesAt scope branch ss).map (·.included)).filter (· ≠ []) := by
    rw [List.filter_map]
    rfl
  have selects : ∀ s : Selection,
      (s.narrow scope).selectsAny = decide ((s.narrow scope).includedIds ≠ []) := by
    intro s
    rw [Selection.narrow_selectsAny, Selection.includedIds, Selection.narrow_includedRefs]
    cases s.keptRefs scope <;> rfl
  rw [mapIdx_again own, named, entriesAt_included, List.filter_map, List.filter_map,
    entriesAt_narrowed]
  congr 2
  apply List.filter_congr
  intro s _
  exact selects s

end Entries

section Again

variable {scope : IdSet}

theorem Plan.report_entriesAt (p : Plan) : (p.report scope).entries =
    (p.branches.map fun b => entriesAt scope b.1 (selectionsOf b.2)).flatten ++
      entriesAt scope .top p.reviewed.selections := by
  rw [report_entries, located, List.map_append, List.map_flatMap, List.flatMap_def]
  rfl

theorem Plan.report_tailored (p : Plan) : ((p.tailor scope).report scope).entries =
    (p.branches.map fun b => entriesAt scope b.1 (selectionsOf b.2)).flatMap
        (fun es => (es.filter (·.included ≠ [])).mapIdx ReportEntry.again) ++
      (entriesAt scope .top p.reviewed.selections).mapIdx ReportEntry.again := by
  have top : entriesAt scope .top (p.tailor scope).reviewed.selections =
      (entriesAt scope .top p.reviewed.selections).mapIdx ReportEntry.again := entriesAt_again
  rw [report_entriesAt, top, tailor_branches, List.map_map, List.flatMap_map, List.flatMap_def]
  congr 3
  funext b
  rw [← entriesAt_pruned, ← selectionsOf_remnant]
  rfl

theorem map_content_again (es : List ReportEntry) :
    (es.mapIdx ReportEntry.again).map (·.content) =
      es.map fun e => (e.location.branch, some e.included.length, e.included) := by
  rw [List.mapIdx_eq_zipIdx_map, List.map_map]
  exact map_zipIdx_fst
    (fun e : ReportEntry => (e.location.branch, some e.included.length, e.included)) es

theorem Plan.report_kept (p : Plan) :
    ((p.tailor scope).report scope).entries.map (·.content) =
      ((p.report scope).entries.filter fun e => e.location.branch = .top ∨ e.included ≠ []).map
        fun e => (e.location.branch, some e.included.length, e.included) := by
  let stays : ReportEntry → Bool := fun e => e.location.branch = .top ∨ e.included ≠ []
  have below : ∀ b ∈ p.branches, (entriesAt scope b.1 (selectionsOf b.2)).filter stays =
      (entriesAt scope b.1 (selectionsOf b.2)).filter (·.included ≠ []) := by
    intro b part
    apply List.filter_congr
    intro e member
    have here : e.location.branch ≠ .top := by
      rw [entriesAt_locations.at_branch member]
      exact branch_ne_top part
    simp only [stays, here, false_or]
  have top : (entriesAt scope .top p.reviewed.selections).filter stays =
      entriesAt scope .top p.reviewed.selections := by
    rw [List.filter_eq_self]
    intro e member
    exact decide_eq_true (.inl (entriesAt_locations.at_branch member))
  have all : (p.report scope).entries.filter stays =
      (p.branches.flatMap fun b =>
        (entriesAt scope b.1 (selectionsOf b.2)).filter (·.included ≠ [])) ++
      entriesAt scope .top p.reviewed.selections := by
    rw [report_entriesAt, List.filter_append, top, List.filter_flatten, List.map_map,
      ← List.flatMap_def]
    congr 1
    exact List.flatMap_congr below
  show _ = ((p.report scope).entries.filter stays).map _
  rw [all, report_tailored, List.map_append, List.map_append, map_content_again, List.flatMap_map,
    List.map_flatMap, List.map_flatMap]
  simp only [map_content_again]

theorem Plan.report_repeated (p : Plan) :
    (p.report scope).Repeated p ((p.tailor scope).report scope) where
  entries := by
    refine ⟨_, _, ?_, entriesAt_locations, p.report_entriesAt, p.report_tailored⟩
    rw [List.forall₂_map_right_iff, List.forall₂_same]
    intro b _
    exact entriesAt_locations
  kept := p.report_kept
  skipped := p.tailor_normal.report_skipped
  retained := by
    apply IdSet.ext_mem
    intro id
    rw [(p.tailor scope).report_accurate.retained, p.tailor_normal.tailor,
      p.report_accurate.retained]
  emptied := by
    intro e member none
    have listed : e.content ∈ ((p.tailor scope).report scope).entries.map (·.content) :=
      List.mem_map_of_mem member
    rw [p.report_kept] at listed
    obtain ⟨old, kept, same⟩ := List.mem_map.mp listed
    have place : old.location.branch = e.location.branch := congrArg Prod.fst same
    have names : old.included = e.included := congrArg (·.2.2) same
    rcases of_decide_eq_true (List.mem_filter.mp kept).2 with top | filled
    · exact place.symm.trans top
    · exact absurd (names.trans none) filled

end Again

/-- The second of two tailorings to one scope, whose report is collected like the first one, tells
of the selections that the first one left, and of nothing new. -/
theorem tailored_again_reported (scope : IdSet) (p : Plan) :
    let first := (p.walk .reporting scope).run .blank
    let second := (first.1.walk .reporting scope).run .blank
    first.2.Repeated p second.2 := by
  have walked : ∀ q : Plan,
      (q.walk .reporting scope).run .blank = (q.tailor scope, q.report scope) := by
    intro q
    rw [q.walk_tells, reporting_foldl_blank]
  simp only [walked]
  exact p.report_repeated

end AssessmentPlans
