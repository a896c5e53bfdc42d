import AssessmentPlans.Proofs.Pipeline
import AssessmentPlans.Proofs.Scope.Report
import AssessmentPlans.Proofs.Text.Split

/-! The texts by which a report calls selections and branches. They are put together from
identifiers and slashes, and as no identifier of a valid plan has a slash in it, different places
have different texts. -/
namespace AssessmentPlans

/-! Identifiers. -/

theorem Uuid.follows_avoids {c : Char} (other : Text.isHexDigit c = false) {form cs : List Char}
    (absent : ∀ f ∈ form, c.toLower ≠ f) (follows : Uuid.follows form cs = true) : c ∉ cs := by
  induction form generalizing cs with
  | nil =>
      cases cs with
      | nil => exact List.not_mem_nil
      | cons d cs => cases follows
  | cons f form ih =>
      cases cs with
      | nil => cases follows
      | cons d cs =>
          obtain ⟨own, later⟩ := List.forall_mem_cons.mp absent
          rw [Uuid.follows, Bool.and_eq_true] at follows
          obtain ⟨here, rest⟩ := follows
          rw [List.mem_cons, not_or]
          refine ⟨?_, ih later rest⟩
          rintro rfl
          split at here
          · cases here.symm.trans other
          · exact own (beq_iff_eq.mp here)

theorem Uuid.no_slash {uuid : String} (valid : Uuid.isValid uuid = true) : '/' ∉ uuid.toList := by
  obtain ⟨form, listed, follows⟩ := List.any_eq_true.mp valid
  have absent : ∀ form ∈ Uuid.forms, ∀ f ∈ form.toList, '/'.toLower ≠ f := by
    simp [Uuid.forms]
  exact Uuid.follows_avoids rfl (absent form listed) follows

/-! Texts. -/

/-- There is no slash in the identifiers of the branch. -/
def Branch.Plain : Branch → Prop
  | .activity uuid => '/' ∉ uuid.toList
  | .step owner uuid => '/' ∉ owner.toList ∧ '/' ∉ uuid.toList
  | .top => True

/-- What stands between the slashes in the text of a branch. -/
def Branch.parts : Branch → List String
  | .activity uuid => ["activity " ++ uuid, "related-controls"]
  | .step owner uuid => ["activity " ++ owner, "step " ++ uuid, "reviewed-controls"]
  | .top => ["reviewed-controls"]

theorem split_labelled {label uuid : String} (plain : '/' ∉ label.toList)
    (plain' : '/' ∉ uuid.toList) : Text.split '/' (label ++ uuid) = [label ++ uuid] := by
  apply Text.split_single
  rw [String.toList_append, List.mem_append, not_or]
  exact ⟨plain, plain'⟩

theorem Branch.split_text {b : Branch} (plain : b.Plain) : Text.split '/' b.text = b.parts := by
  cases b with
  | activity uuid =>
      have text : Branch.text (.activity uuid) =
          "activity " ++ uuid ++ String.singleton '/' ++ "related-controls" := by
        rw [← String.toList_inj]
        simp [Branch.text]
      rw [text, Text.split_append, split_labelled (by decide) plain, Text.split_single (by decide)]
      rfl
  | step owner uuid =>
      obtain ⟨first, second⟩ := plain
      have text : Branch.text (.step owner uuid) = "activity " ++ owner ++ String.singleton '/' ++
          ("step " ++ uuid) ++ String.singleton '/' ++ "reviewed-controls" := by
        rw [← String.toList_inj]
        simp [Branch.text]
      rw [text, Text.split_append, Text.split_append, split_labelled (by decide) first,
        split_labelled (by decide) second, Text.split_single (by decide)]
      rfl
  | top => exact Text.split_single (by decide)

theorem Branch.parts_injective : Function.Injective Branch.parts := by
  intro b c same
  cases b <;> cases c <;> simp [Branch.parts] at same ⊢ <;> exact same

theorem Branch.text_injective {b c : Branch} (plain : b.Plain) (plain' : c.Plain)
    (same : b.text = c.text) : b = c := by
  apply Branch.parts_injective
  rw [← Branch.split_text plain, ← Branch.split_text plain', same]

theorem toList_number (n : Nat) : (toString n).toList = Nat.toDigits 10 n := String.toList_ofList

theorem number_no_slash (n : Nat) : '/' ∉ (toString n).toList := by
  intro member
  rw [toList_number] at member
  have digit := Nat.isDigit_of_mem_toDigits (by decide) (by decide) member
  cases digit

theorem number_injective {m n : Nat} (same : toString m = toString n) : m = n := by
  have digits := congrArg String.toList same
  rw [toList_number, toList_number] at digits
  rw [← @Nat.ofDigitChars_ten_toDigits m, digits, Nat.ofDigitChars_ten_toDigits]

theorem Location.split_text {l : Location} (plain : l.branch.Plain) : Text.split '/' l.text =
    l.branch.parts ++ ["control-selections[" ++ (toString l.index ++ "]")] := by
  have text : l.text = l.branch.text ++ String.singleton '/' ++
      ("control-selections[" ++ (toString l.index ++ "]")) := by
    rw [← String.toList_inj]
    simp [Location.text]
  have number : '/' ∉ (toString l.index ++ "]").toList := by
    rw [String.toList_append, List.mem_append, not_or]
    exact ⟨number_no_slash l.index, by decide⟩
  rw [text, Text.split_append, Branch.split_text plain, split_labelled (by decide) number]

theorem Location.text_injective {l m : Location} (plain : l.branch.Plain)
    (plain' : m.branch.Plain) (same : l.text = m.text) : l = m := by
  have parts := congrArg (Text.split '/') same
  rw [Location.split_text plain, Location.split_text plain'] at parts
  obtain ⟨branch, last⟩ := List.append_inj' parts rfl
  have number : toString l.index = toString m.index := by simpa using last
  obtain ⟨b, i⟩ := l
  obtain ⟨c, j⟩ := m
  cases Branch.parts_injective branch
  cases number_injective number
  rfl

/-! Places. -/

/-- No two activities have one identifier, and no two steps of one activity. -/
structure Plan.Identified (p : Plan) : Prop where
  activities : (p.activities.map (·.uuid)).Nodup
  steps : ∀ a ∈ p.activities, (a.stepList.map (·.uuid)).Nodup

/-- The identifiers below the top are well formed. -/
def Plan.WellFormed (p : Plan) : Prop :=
  ∀ a ∈ p.activities, Uuid.isValid a.uuid = true ∧ ∀ s ∈ a.stepList, Uuid.isValid s.uuid = true

/-- The activity to which a branch below the top belongs. -/
def Branch.owner? : Branch → Option String
  | .activity uuid => some uuid
  | .step owner _ => some owner
  | .top => none

theorem Activity.branch_owner {a : Activity} {b : Branch × Option Review}
    (member : b ∈ a.branches) : b.1.owner? = some a.uuid := by
  rcases List.mem_cons.mp member with rfl | step
  · rfl
  · obtain ⟨s, _, rfl⟩ := List.mem_map.mp step
    rfl

theorem Activity.branches_nodup {a : Activity} (steps : (a.stepList.map (·.uuid)).Nodup) :
    (a.branches.map (·.1)).Nodup := by
  rw [branches, List.map_cons, List.map_map, List.nodup_cons]
  constructor
  · intro member
    obtain ⟨s, _, same⟩ := List.mem_map.mp member
    cases same
  · have apart : Function.Injective (Branch.step a.uuid) := fun _ _ same => (Branch.step.inj same).2
    have nodup := steps.map apart
    rw [List.map_map] at nodup
    exact nodup

theorem Plan.branches_nodup {p : Plan} (identified : p.Identified) :
    (p.branches.map (·.1)).Nodup := by
  rw [branches, List.map_flatMap, List.nodup_flatMap]
  refine ⟨fun a member => Activity.branches_nodup (identified.steps a member), ?_⟩
  refine (List.pairwise_map.mp identified.activities).imp ?_
  intro a a' other b first second
  obtain ⟨x, member, rfl⟩ := List.mem_map.mp first
  obtain ⟨y, member', same⟩ := List.mem_map.mp second
  have owner := Activity.branch_owner member
  rw [← same, Activity.branch_owner member'] at owner
  exact other (Option.some.inj owner).symm

theorem locate_locations (branch : Branch) (ss : List Selection) :
    (locate branch ss).map (·.1) = (List.range ss.length).map (Location.mk branch) := by
  rw [locate, List.mapIdx_eq_zipIdx_map, List.map_map, List.range_eq_range', ← List.zipIdx_map_snd 0 ss,
    List.map_map]
  rfl

theorem branch_of_mem_locate {branch : Branch} {ss : List Selection} {l : Location}
    (member : l ∈ (locate branch ss).map (·.1)) : l.branch = branch := by
  rw [locate_locations] at member
  obtain ⟨n, _, rfl⟩ := List.mem_map.mp member
  rfl

theorem locate_nodup (branch : Branch) (ss : List Selection) :
    ((locate branch ss).map (·.1)).Nodup := by
  rw [locate_locations]
  exact List.nodup_range.map fun m n same => congrArg Location.index same

/-- Selections are numbered in each branch, before any of them is dropped. -/
theorem Plan.locations_nodup {p : Plan} (identified : p.Identified) :
    (p.located.map (·.1)).Nodup := by
  rw [located, List.map_append, List.map_flatMap, List.nodup_append]
  refine ⟨List.nodup_flatMap.mpr ⟨fun b _ => locate_nodup _ _, ?_⟩, locate_nodup _ _, ?_⟩
  · refine (List.pairwise_map.mp (Plan.branches_nodup identified)).imp ?_
    intro b c other l first second
    exact other ((branch_of_mem_locate first).symm.trans (branch_of_mem_locate second))
  · intro l inside m top
    obtain ⟨b, member, part⟩ := List.mem_flatMap.mp inside
    rintro rfl
    exact Plan.branch_ne_top member ((branch_of_mem_locate part).symm.trans (branch_of_mem_locate top))

theorem Plan.branches_plain {p : Plan} (formed : p.WellFormed) {b : Branch × Option Review}
    (member : b ∈ p.branches) : b.1.Plain := by
  obtain ⟨a, listed, part⟩ := List.mem_flatMap.mp member
  obtain ⟨own, steps⟩ := formed a listed
  rcases List.mem_cons.mp part with rfl | step
  · exact Uuid.no_slash own
  · obtain ⟨s, inside, rfl⟩ := List.mem_map.mp step
    exact ⟨Uuid.no_slash own, Uuid.no_slash (steps s inside)⟩

theorem Plan.locations_plain {p : Plan} (formed : p.WellFormed) {l : Location}
    (member : l ∈ p.located.map (·.1)) : l.branch.Plain := by
  rw [located, List.map_append, List.map_flatMap, List.mem_append] at member
  rcases member with inside | top
  · obtain ⟨b, listed, part⟩ := List.mem_flatMap.mp inside
    rw [branch_of_mem_locate part]
    exact Plan.branches_plain formed listed
  · rw [branch_of_mem_locate top]
    trivial

theorem Plan.report_skipped_sublist (p : Plan) (scope : IdSet) :
    (p.report scope).skipped.Sublist (p.branches.map (·.1)) := by
  have whole : (p.branches.zip (p.tailor scope).branches).map (·.1.1) = p.branches.map (·.1) := by
    rw [branches_zip, List.map_map]
    rfl
  rw [report_skipped, ← whole]
  exact List.filter_sublist.map _

/-- No two selections and no two branches of the report have the same text. -/
structure Report.Distinguishes (r : Report) : Prop where
  entries : (r.entries.map fun e => e.location.text).Nodup
  skipped : (r.skipped.map Branch.text).Nodup

theorem Plan.report_distinguishes {p : Plan} (identified : p.Identified) (formed : p.WellFormed)
    (scope : IdSet) : (p.report scope).Distinguishes := by
  constructor
  · have texts : (p.report scope).entries.map (fun e => e.location.text) =
        (p.located.map (·.1)).map Location.text := by
      rw [report_entries, List.map_map, List.map_map]
      rfl
    rw [texts]
    refine List.Nodup.map_on ?_ (Plan.locations_nodup identified)
    intro l first m second same
    exact Location.text_injective (Plan.locations_plain formed first)
      (Plan.locations_plain formed second) same
  · have kept := p.report_skipped_sublist scope
    refine List.Nodup.map_on ?_ ((Plan.branches_nodup identified).sublist kept)
    have plain : ∀ b ∈ p.branches.map (·.1), b.Plain := by
      intro b member
      obtain ⟨x, listed, rfl⟩ := List.mem_map.mp member
      exact Plan.branches_plain formed listed
    intro b first c second same
    exact Branch.text_injective (plain b (kept.subset first)) (plain c (kept.subset second)) same

theorem Plan.wellFormed_of_errors {p : Plan} (sound : p.issues.errors = []) : p.WellFormed := by
  have valid := Plan.issues_errors_eq_nil.mp sound
  intro a member
  have own := valid.activities a member
  exact ⟨own.uuid, fun s inside => (own.steps s inside).uuid⟩

/-! Plans that have been built. -/

section Built

variable {framework now : String} {ds : List Definition} {ids : Nat → String}

/-- No identifier is given again while a plan for the framework is built. -/
def Unrepeated (framework : String) (ds : List Definition) (ids : Nat → String) : Prop :=
  ∀ m < freshIdCount framework ds, ∀ n < freshIdCount framework ds, ids m = ids n → m = n

theorem ruleActivities_nodup {rules : List (String × List String)}
    (unrepeated : ∀ m < idCount ds rules, ∀ n < idCount ds rules, ids m = ids n → m = n) :
    ((ruleActivities ds ids rules).map (·.uuid)).Nodup := by
  induction rules generalizing ids with
  | nil => exact .nil
  | cons r rules ih =>
      obtain ⟨rule, controls⟩ := r
      rw [idCount] at unrepeated
      rw [ruleActivities, List.map_cons, List.nodup_cons]
      constructor
      · intro member
        obtain ⟨a, later, same⟩ := List.mem_map.mp member
        obtain ⟨r', _, k, bound, rfl⟩ := mem_ruleActivities later
        have place := unrepeated _ (by omega) 0 (by omega) same
        omega
      · refine ih fun m first n second same => ?_
        have place := unrepeated _ (by omega) _ (by omega) same
        omega

theorem ruleActivity_steps_nodup {rule : String} {controls : List String}
    (unrepeated : ∀ m < 1 + (checksOf ds rule).length, ∀ n < 1 + (checksOf ds rule).length,
      ids m = ids n → m = n) :
    ((ruleActivity ds ids rule controls).stepList.map (·.uuid)).Nodup := by
  rw [ruleActivity_stepList, List.Nodup, List.pairwise_iff_getElem]
  intro i j first second before same
  simp only [List.length_map, List.length_mapIdx] at first second
  simp only [List.getElem_map, List.getElem_mapIdx, Check.step] at same
  have place := unrepeated (i + 1) (by omega) (j + 1) (by omega) same
  omega

theorem wholePlan_identified (implemented : ∃ i, i ∈ implementationsFor framework ds)
    (unrepeated : Unrepeated framework ds ids) : (wholePlan framework ds ids now).Identified := by
  have count := freshIdCount_eq implemented
  constructor
  · rw [wholePlan_activities]
    refine ruleActivities_nodup fun m first n second same => ?_
    have place := unrepeated (m + 1) (by omega) (n + 1) (by omega) same
    omega
  · intro a member
    rw [wholePlan_activities] at member
    obtain ⟨r, _, k, bound, rfl⟩ := mem_ruleActivities member
    refine ruleActivity_steps_nodup fun m first n second same => ?_
    have place := unrepeated (k + m + 1) (by omega) (k + n + 1) (by omega) same
    omega

theorem wholePlan_wellFormed (implemented : ∃ i, i ∈ implementationsFor framework ds)
    (fresh : Fresh framework ds ids) : (wholePlan framework ds ids now).WellFormed := by
  have count := freshIdCount_eq implemented
  intro a member
  rw [wholePlan_activities] at member
  obtain ⟨r, _, k, bound, rfl⟩ := mem_ruleActivities member
  refine ⟨fresh (k + 0 + 1) (by omega), fun s inside => ?_⟩
  rw [ruleActivity_stepList] at inside
  obtain ⟨n, bound', rfl⟩ := List.mem_mapIdx.mp inside
  exact fresh (k + (n + 1) + 1) (by omega)

end Built

/-- In a plan without errors whose activities differ in their identifiers, as do the steps of each
of them, no two selections and no two branches are reported under one text, whatever the scope.
Plans are built so where no identifier is given twice. -/
theorem reported_texts_distinct :
    (∀ p : Plan, p.issues.errors = [] → p.Identified → ∀ scope, (p.report scope).Distinguishes) ∧
      ∀ (framework : String) (ds : List Definition) (ids : Nat → String) (now : String) (p : Plan),
        Plan.synthesize framework ds ids now = .ok p → Unrepeated framework ds ids →
        p.Identified ∧
          (Fresh framework ds ids → ∀ scope, (p.report scope).Distinguishes) := by
  constructor
  · intro p sound identified scope
    exact Plan.report_distinguishes identified (Plan.wellFormed_of_errors sound) scope
  · intro framework ds ids now p built unrepeated
    have implemented := Plan.exists_synthesize.mp ⟨p, built⟩
    rw [Plan.synthesize_eq_ok implemented] at built
    cases built
    have identified : (wholePlan framework ds ids now).Identified :=
      wholePlan_identified implemented unrepeated
    refine ⟨identified, fun fresh scope => ?_⟩
    exact Plan.report_distinguishes identified (wholePlan_wellFormed implemented fresh) scope

def numberedId (n : Nat) : String := "00000000-0000-4000-8000-00000000000" ++ toString n

theorem reported_texts_distinct_twoActivities :
    (twoActivities.report (.ofList ["ac-9"])).Distinguishes ∧
      ∃ p, Plan.synthesize "cis" hostDefinitions numberedId "yesterday" = .ok p ∧
        (p.report (.ofList ["ac-2"])).Distinguishes := by
  obtain ⟨valid, built⟩ := reported_texts_distinct
  have sound : twoActivities.issues.errors = [] := by decide +kernel
  have identified : twoActivities.Identified := ⟨by decide +kernel, by decide +kernel⟩
  have unrepeated : Unrepeated "cis" hostDefinitions numberedId := by
    unfold Unrepeated
    decide +kernel
  have fresh : Fresh "cis" hostDefinitions numberedId := by
    unfold Fresh
    decide +kernel
  have whole : Plan.synthesize "cis" hostDefinitions numberedId "yesterday" = .ok _ :=
    Plan.synthesize_eq_ok ⟨hostImplementation, hostImplementation_mem⟩
  obtain ⟨_, told⟩ := built "cis" hostDefinitions numberedId "yesterday" _ whole unrepeated
  exact ⟨valid twoActivities sound identified _, _, whole, told fresh _⟩

end AssessmentPlans
