import AssessmentPlans.Framework
import AssessmentPlans.Proofs.Plan.Synthesis

/-! Three readings of component definitions: the list of frameworks, the configuration with all
controls of one, and the plan for it. Each goes through the definitions in its own way. -/
namespace AssessmentPlans

variable {framework : String} {ds : List Definition}

theorem mem_implementationsFor {i : Implementation} : i ∈ implementationsFor framework ds ↔
    ∃ c ∈ componentsOf ds, i ∈ c.implementationList ∧ i.frameworkId = framework := by
  simp only [implementationsFor, List.mem_filter, List.mem_flatMap, beq_iff_eq]
  exact ⟨fun ⟨⟨c, part, member⟩, targets⟩ => ⟨c, part, member, targets⟩,
    fun ⟨c, part, member, targets⟩ => ⟨⟨c, part, member⟩, targets⟩⟩

/-! The configuration. -/

theorem foldl_listControl (rs : List Requirement) (controls : List String) :
    rs.foldl listControl controls =
      ((rs.filter (·.controlId ≠ "")).map (·.controlId)).foldl addNew controls := by
  induction rs generalizing controls with
  | nil => rfl
  | cons r rs ih =>
      rw [List.foldl_cons, ih, listControl]
      by_cases unnamed : r.controlId = ""
      · simp [unnamed]
      · by_cases listed : r.controlId ∈ controls
        · simp [unnamed, listed, addNew_of_mem listed]
        · simp [unnamed, listed, addNew_of_not_mem listed]

theorem ScopeConfig.template_eq_ok {c : ScopeConfig} : template framework ds = .ok c ↔
    (∃ i, i ∈ implementationsFor framework ds) ∧ c = ⟨framework, controlsOf framework ds⟩ := by
  rw [← frameworkFault?_eq_none, template, foldl_listControl, foldl_addNew]
  cases frameworkFault? framework ds with
  | none => exact ⟨fun h => ⟨rfl, (Except.ok.inj h).symm⟩, fun h => congrArg Except.ok h.2.symm⟩
  | some fault => exact iff_of_false nofun fun h => nomatch h.1

/-- The configuration depends on no more than the controls that are required. -/
theorem ScopeConfig.template_congr {ds' : List Definition}
    (fault : frameworkFault? framework ds = frameworkFault? framework ds')
    (controls : controlsOf framework ds = controlsOf framework ds') :
    template framework ds = template framework ds' := by
  rw [template, template, foldl_listControl, foldl_listControl, foldl_addNew, foldl_addNew, fault]
  cases frameworkFault? framework ds' with
  | none => exact congrArg (fun cs => Except.ok (ScopeConfig.mk framework cs)) controls
  | some fault => rfl

/-! The list of frameworks. -/

/-- All implementations, each with the title of its component. -/
def titledImplementations (ds : List Definition) : List (String × Implementation) :=
  (componentsOf ds).flatMap fun c => c.implementationList.map (c.title, ·)

/-- What a list of implementations comes to for one framework. -/
def frameworkEntry (xs : List (String × Implementation)) (id : String) : FrameworkEntry :=
  (xs.filter (·.2.frameworkId = id)).foldl (fun e x => e.add x.1 x.2) (.blank id)

theorem frameworkEntry_id (xs : List (String × Implementation)) (id : String) :
    (frameworkEntry xs id).id = id := by
  unfold frameworkEntry
  induction xs.filter (·.2.frameworkId = id) using List.reverseRecOn with
  | nil => rfl
  | append_singleton xs x ih =>
      rw [List.foldl_concat]
      exact ih

theorem frameworkEntry_concat (xs : List (String × Implementation)) (x : String × Implementation)
    (id : String) : frameworkEntry (xs ++ [x]) id =
      if id = x.2.frameworkId then (frameworkEntry xs id).add x.1 x.2 else frameworkEntry xs id := by
  rw [frameworkEntry, List.filter_append]
  by_cases own : id = x.2.frameworkId
  · subst own
    simp [frameworkEntry]
  · simp [own, Ne.symm own, frameworkEntry]

/-- One more implementation, for entries that ascend. -/
theorem takeIn_map {title : String} {i : Implementation} {ids : List String}
    {entry : String → FrameworkEntry} (ascending : ids.Pairwise (· < ·))
    (own : ∀ id, (entry id).id = id)
    (unlisted : i.frameworkId ∉ ids → entry i.frameworkId = .blank i.frameworkId) :
    takeIn title i (ids.map entry) = (IdSet.insertId i.frameworkId ids).map fun id =>
      if id = i.frameworkId then (entry id).add title i else entry id := by
  have others : ∀ ids : List String, i.frameworkId ∉ ids → ids.map entry = ids.map fun id =>
      if id = i.frameworkId then (entry id).add title i else entry id := by
    intro ids h
    refine List.map_congr_left fun id member => ?_
    rw [if_neg (ne_of_mem_of_not_mem member h)]
  induction ids with
  | nil => simp [takeIn, IdSet.insertId, unlisted List.not_mem_nil]
  | cons id ids ih =>
      obtain ⟨least, ascending⟩ := List.pairwise_cons.mp ascending
      rw [List.map_cons, takeIn, IdSet.insertId, own]
      by_cases before : i.frameworkId < id
      · have fresh : i.frameworkId ∉ id :: ids := by
          intro member
          rcases List.mem_cons.mp member with rfl | member
          · exact String.lt_irrefl _ before
          · exact String.lt_irrefl _ (String.lt_trans before (least _ member))
        rw [if_pos before, if_pos before, List.map_cons, if_pos rfl, unlisted fresh,
          ← others _ fresh]
        rfl
      · rw [if_neg before, if_neg before]
        by_cases same : i.frameworkId = id
        · have fresh : i.frameworkId ∉ ids := by
            intro member
            rw [same] at member
            exact String.lt_irrefl _ (least _ member)
          rw [if_pos same, if_pos same, List.map_cons, if_pos same.symm, ← others _ fresh]
        · rw [if_neg same, if_neg same, List.map_cons, if_neg (Ne.symm same)]
          congr 1
          exact ih ascending fun h =>
            unlisted (List.not_mem_cons_of_ne_of_not_mem same h)

/-- Taking in implementations one after the other gives each framework the entry for all of them. -/
theorem foldl_takeIn (xs : List (String × Implementation)) :
    xs.foldl (fun es x => takeIn x.1 x.2 es) [] =
      (IdSet.ofList (xs.map (·.2.frameworkId))).ids.map (frameworkEntry xs) := by
  induction xs using List.reverseRecOn with
  | nil => rfl
  | append_singleton xs x ih =>
      have unlisted : x.2.frameworkId ∉ (IdSet.ofList (xs.map (·.2.frameworkId))).ids →
          frameworkEntry xs x.2.frameworkId = .blank x.2.frameworkId := by
        intro h
        have none : xs.filter (·.2.frameworkId = x.2.frameworkId) = [] :=
          List.filter_eq_nil_iff.mpr fun other member same =>
            h (IdSet.mem_ofList.mpr (List.mem_map.mpr ⟨other, member, of_decide_eq_true same⟩))
        rw [frameworkEntry, none]
        rfl
      have ids : IdSet.ofList ((xs ++ [x]).map (·.2.frameworkId)) =
          (IdSet.ofList (xs.map (·.2.frameworkId))).insert x.2.frameworkId := by
        refine IdSet.ext_mem fun id => ?_
        rw [IdSet.mem_ofList, List.map_append, List.mem_append, List.map_singleton,
          List.mem_singleton, or_comm, ← IdSet.mem_ofList]
        exact IdSet.mem_insertId.symm
      rw [List.foldl_concat, ih, takeIn_map (IdSet.ascending _) (frameworkEntry_id xs) unlisted, ids]
      exact List.map_congr_left fun id _ => (frameworkEntry_concat xs x id).symm

theorem frameworkEntries_eq (ds : List Definition) : frameworkEntries ds =
    (IdSet.ofList ((titledImplementations ds).map (·.2.frameworkId))).ids.map
      (frameworkEntry (titledImplementations ds)) := by
  rw [← foldl_takeIn, titledImplementations, List.foldl_flatMap]
  simp only [List.foldl_map]
  rfl

theorem availableFrameworks_ids (ds : List Definition) : (availableFrameworks ds).map (·.id) =
    (IdSet.ofList ((titledImplementations ds).map (·.2.frameworkId))).ids := by
  rw [availableFrameworks, frameworkEntries_eq, List.map_map, List.map_map]
  refine (List.map_congr_left fun id _ => ?_).trans (List.map_id _)
  exact frameworkEntry_id _ id

theorem mem_availableFrameworks {s : FrameworkSummary} (h : s ∈ availableFrameworks ds) :
    s.controls = (frameworkEntry (titledImplementations ds) s.id).controls.size ∧
      s.components = (frameworkEntry (titledImplementations ds) s.id).components := by
  rw [availableFrameworks, frameworkEntries_eq, List.map_map] at h
  obtain ⟨id, _, rfl⟩ := List.mem_map.mp h
  have own : ((frameworkEntry (titledImplementations ds) id).summary).id = id := frameworkEntry_id _ id
  rw [Function.comp_apply, own]
  exact ⟨rfl, rfl⟩

theorem mem_titledImplementations {x : String × Implementation} : x ∈ titledImplementations ds ↔
    ∃ c ∈ componentsOf ds, x.2 ∈ c.implementationList ∧ c.title = x.1 := by
  simp only [titledImplementations, List.mem_flatMap, List.mem_map]
  refine exists_congr fun c => and_congr_right fun _ => ?_
  exact ⟨fun ⟨i, member, same⟩ => same ▸ ⟨member, rfl⟩, fun ⟨member, titled⟩ =>
    ⟨x.2, member, Prod.ext titled rfl⟩⟩

theorem mem_availableFrameworks_ids : framework ∈ (availableFrameworks ds).map (·.id) ↔
    ∃ i, i ∈ implementationsFor framework ds := by
  have listed : framework ∈ (availableFrameworks ds).map (·.id) ↔
      framework ∈ (titledImplementations ds).map (·.2.frameworkId) := by
    rw [availableFrameworks_ids]
    exact IdSet.mem_ofList
  rw [listed, List.mem_map]
  constructor
  · rintro ⟨x, member, targets⟩
    obtain ⟨c, part, member, _⟩ := mem_titledImplementations.mp member
    exact ⟨x.2, mem_implementationsFor.mpr ⟨c, part, member, targets⟩⟩
  · rintro ⟨i, member⟩
    obtain ⟨c, part, member, targets⟩ := mem_implementationsFor.mp member
    exact ⟨(c.title, i), mem_titledImplementations.mpr ⟨c, part, member, rfl⟩, targets⟩

theorem mem_foldl_insert {id : String} (ids : List String) (set : IdSet) :
    id ∈ ids.foldl (fun set id => set.insert id) set ↔ id ∈ ids ∨ id ∈ set := by
  induction ids generalizing set with
  | nil => simp
  | cons other ids ih =>
      have inserted : id ∈ set.insert other ↔ id = other ∨ id ∈ set := IdSet.mem_insertId
      rw [List.foldl_cons, ih, inserted, List.mem_cons, or_left_comm, or_assoc]

theorem mem_frameworkEntry_controls {control : String} (xs : List (String × Implementation)) :
    control ∈ (frameworkEntry xs framework).controls ↔ ∃ x ∈ xs, x.2.frameworkId = framework ∧
      ∃ r ∈ x.2.requirements, r.controlId = control ∧ control ≠ "" := by
  induction xs using List.reverseRecOn with
  | nil => exact iff_of_false List.not_mem_nil fun ⟨_, member, _⟩ => List.not_mem_nil member
  | append_singleton xs x ih =>
      simp only [List.mem_append, List.mem_singleton, or_and_right, exists_or, exists_eq_left, ← ih,
        frameworkEntry_concat]
      by_cases own : framework = x.2.frameworkId
      · simp only [own, if_true, true_and, FrameworkEntry.add, mem_foldl_insert, List.mem_filter,
          List.mem_map, decide_eq_true_iff, or_comm]
        simp only [← exists_and_right, and_assoc]
      · simp only [own, if_false, Ne.symm own, false_and, or_false]

/-- The controls that are counted are those that are planned. -/
theorem frameworkEntry_controls_size (framework : String) (ds : List Definition) :
    (frameworkEntry (titledImplementations ds) framework).controls.size =
      (controlsOf framework ds).length := by
  let entry := frameworkEntry (titledImplementations ds) framework
  have members : ∀ control, control ∈ entry.controls ↔ control ∈ controlsOf framework ds := by
    intro control
    refine (mem_frameworkEntry_controls _).trans ?_
    rw [mem_controlsOf]
    constructor
    · rintro ⟨x, member, targets, r, required, named, filled⟩
      obtain ⟨c, part, member, _⟩ := mem_titledImplementations.mp member
      refine ⟨r, mem_namedRequirements.mpr ⟨x.2, ?_, required, named ▸ filled⟩, named⟩
      exact mem_implementationsFor.mpr ⟨c, part, member, targets⟩
    · rintro ⟨r, required, named⟩
      obtain ⟨i, member, required, filled⟩ := mem_namedRequirements.mp required
      obtain ⟨c, part, member, targets⟩ := mem_implementationsFor.mp member
      refine ⟨(c.title, i), ?_, targets, r, required, named, named ▸ filled⟩
      exact mem_titledImplementations.mpr ⟨c, part, member, rfl⟩
  exact IdSet.size_eq_length (controlsOf_nodup _ _) members

theorem foldl_addNew_map_const {α β : Type} [DecidableEq α] (a : α) (bs : List β) (as : List α) :
    (bs.map fun _ => a).foldl addNew as = if bs = [] then as else addNew as a := by
  induction bs using List.reverseRecOn with
  | nil => rfl
  | append_singleton bs b ih =>
      rw [List.map_append, List.map_singleton, List.foldl_concat, ih,
        if_neg (List.append_ne_nil_of_right_ne_nil bs (List.cons_ne_nil b []))]
      split
      · rfl
      · exact addNew_of_mem (mem_addNew.mpr (.inr rfl))

/-- A component is named once, however many of its implementations are for the framework. -/
theorem foldl_titles (framework : String) (cs : List Component) (titles : List String) :
    (((cs.flatMap fun c => c.implementationList.map (c.title, ·)).filter
      (·.2.frameworkId = framework)).map (·.1)).foldl addNew titles =
        ((cs.filter fun c => c.implementationList.any (·.frameworkId == framework)).map
          (·.title)).foldl addNew titles := by
  induction cs generalizing titles with
  | nil => rfl
  | cons c cs ih =>
      have own : ((c.implementationList.map (c.title, ·)).filter (·.2.frameworkId = framework)).map
          (·.1) = (c.implementationList.filter (·.frameworkId = framework)).map fun _ => c.title := by
        rw [List.filter_map, List.map_map]
        rfl
      rw [List.flatMap_cons, List.filter_append, List.map_append, List.foldl_append, ih, own,
        foldl_addNew_map_const, List.filter_cons]
      by_cases some : c.implementationList.any (·.frameworkId == framework) = true
      · obtain ⟨i, member, targets⟩ := List.any_eq_true.mp some
        have filled : c.implementationList.filter (·.frameworkId = framework) ≠ [] :=
          List.ne_nil_of_mem (List.mem_filter.mpr ⟨member, decide_eq_true (eq_of_beq targets)⟩)
        rw [if_neg filled, if_pos some, List.map_cons, List.foldl_cons]
      · have none : c.implementationList.filter (·.frameworkId = framework) = [] :=
          List.filter_eq_nil_iff.mpr fun i member targets =>
            some (List.any_eq_true.mpr ⟨i, member, beq_iff_eq.mpr (of_decide_eq_true targets)⟩)
        rw [if_pos none, if_neg some]

theorem frameworkEntry_components (framework : String) (ds : List Definition) :
    (frameworkEntry (titledImplementations ds) framework).components = distinct
      (((componentsOf ds).filter fun c => c.implementationList.any (·.frameworkId == framework)).map
        (·.title)) := by
  have adding : ∀ (xs : List (String × Implementation)) (e : FrameworkEntry),
      (xs.foldl (fun e x => e.add x.1 x.2) e).components =
        (xs.map (·.1)).foldl addNew e.components := by
    intro xs
    induction xs with
    | nil => exact fun _ => rfl
    | cons x xs ih => exact fun e => ih _
  rw [frameworkEntry, adding, ← foldl_addNew, ← foldl_titles]
  rfl

/-- A framework is listed exactly if some component implements it, if there is a configuration for
it, and if it can be planned. The configuration has the controls that the requirements of the
framework name, each once in the order in which they appear; the plan selects those, and the list
counts them. The list ascends, and names the components of each framework once, in their order. -/
theorem readings_agree (framework : String) (ds : List Definition) (ids : Nat → String)
    (now : String) :
    (framework ∈ (availableFrameworks ds).map (·.id) ↔
      ∃ c ∈ componentsOf ds, ∃ i ∈ c.implementationList, i.frameworkId = framework) ∧
    (framework ∈ (availableFrameworks ds).map (·.id) ↔
      ∃ c, ScopeConfig.template framework ds = .ok c) ∧
    ((∃ c, ScopeConfig.template framework ds = .ok c) ↔
      ∃ p, Plan.synthesize framework ds ids now = .ok p) ∧
    (∀ c p, ScopeConfig.template framework ds = .ok c → Plan.synthesize framework ds ids now = .ok p →
      (∃ s, p.reviewed.selections = [s] ∧ s.includedIds = c.controls) ∧
      FirstAppearances c.controls
        (((requirementsFor framework ds).map (·.controlId)).filter (· ≠ "")) ∧
      c.controls.Nodup ∧ "" ∉ c.controls ∧
      ∀ s ∈ availableFrameworks ds, s.id = framework → s.controls = c.controls.length) ∧
    ((availableFrameworks ds).map (·.id)).Pairwise (· < ·) ∧
    ∀ s ∈ availableFrameworks ds, FirstAppearances s.components
      (((componentsOf ds).filter fun c => c.implementationList.any (·.frameworkId == s.id)).map
        (·.title)) := by
  have template : (∃ c, ScopeConfig.template framework ds = .ok c) ↔
      ∃ i, i ∈ implementationsFor framework ds :=
    ⟨fun ⟨_, built⟩ => (ScopeConfig.template_eq_ok.mp built).1,
      fun h => ⟨_, ScopeConfig.template_eq_ok.mpr ⟨h, rfl⟩⟩⟩
  rw [mem_availableFrameworks_ids]
  refine ⟨?_, template.symm, template.trans Plan.exists_synthesize.symm, ?_, ?_, ?_⟩
  · simp only [mem_implementationsFor]
    exact ⟨fun ⟨i, c, part, member, targets⟩ => ⟨c, part, i, member, targets⟩,
      fun ⟨c, part, i, member, targets⟩ => ⟨i, c, part, member, targets⟩⟩
  · intro c p configured planned
    obtain ⟨implemented, rfl⟩ := ScopeConfig.template_eq_ok.mp configured
    rw [Plan.synthesize_eq_ok implemented] at planned
    cases planned
    rw [wholePlan_reviewed]
    refine ⟨⟨_, rfl, Selection.includedIds_ofIds _⟩, ?_, controlsOf_nodup _ _, not_mem_controlsOf, ?_⟩
    · rw [List.filter_map]
      exact distinct_firstAppearances _
    · rintro s listed rfl
      exact (mem_availableFrameworks listed).1.trans (frameworkEntry_controls_size _ _)
  · rw [availableFrameworks_ids]
    exact (IdSet.ofList _).ascending
  · intro s listed
    rw [(mem_availableFrameworks listed).2, frameworkEntry_components]
    exact distinct_firstAppearances _

end AssessmentPlans
