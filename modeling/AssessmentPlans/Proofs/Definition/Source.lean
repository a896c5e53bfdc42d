import AssessmentPlans.Proofs.Definition.Requirement
import AssessmentPlans.Proofs.Framework
import Mathlib.Data.Fintype.EquivFin
import Mathlib.Data.List.TakeWhile

/-! Which sources are taken for one framework. An implementation that no property assigns to a
framework belongs to the one that its source names, and a plan or a configuration takes its
requirements from just the implementations of the framework. A source is named after what comes
before the first dot, so a name with a dot of its own is cut short. -/
namespace AssessmentPlans

/-- What is read off the definitions would not be the same with other requirements of the
implementation. -/
def DependsOn {α : Type} (read : List Definition → α) (ds : List Definition) (i : Implementation) :
    Prop :=
  ∃ f, (∀ k, k ≠ i → f k = k.requirements) ∧ read (requireAll f ds) ≠ read ds

/-- The plan or the configuration for the framework takes requirements from both. -/
def Merged (framework : String) (ds : List Definition) (i j : Implementation) : Prop :=
  DependsOn (Plan.synthesize framework) ds i ∧ DependsOn (Plan.synthesize framework) ds j ∨
    DependsOn (ScopeConfig.template framework) ds i ∧ DependsOn (ScopeConfig.template framework) ds j

/-- The trailing segment of a source. -/
def trailingSegment (source : String) : List Char :=
  (source.toList.reverse.takeWhile (· ≠ '/')).reverse

/-- A segment without its extension, which is all from the last dot on. -/
def withoutExtension (segment : List Char) : List Char :=
  if '.' ∈ segment then ((segment.reverse.dropWhile (· ≠ '.')).drop 1).reverse else segment

variable {framework : String} {ds : List Definition} {i j : Implementation}

/-! Requirements are taken from the implementations of the framework. -/

/-- The implementations of other frameworks may require anything. -/
theorem implementationsFor_require_other {f : Implementation → List Requirement}
    (others : ∀ k, k ≠ i → f k = k.requirements) (apart : i ∉ implementationsFor framework ds) :
    implementationsFor framework (requireAll f ds) = implementationsFor framework ds := by
  rw [implementationsFor_require]
  refine (List.map_congr_left fun k member => ?_).trans (List.map_id _)
  rw [Implementation.require, others k (ne_of_mem_of_not_mem member apart)]
  rfl

theorem require_mem (f : Implementation → List Requirement)
    (member : i ∈ implementationsFor framework ds) :
    i.require f ∈ implementationsFor framework (requireAll f ds) :=
  implementationsFor_require ▸ List.mem_map_of_mem member

/-- A new control, required by an implementation of the framework and nowhere else, is listed. -/
theorem exists_other_controls (member : i ∈ implementationsFor framework ds) :
    ∃ f, (∀ k, k ≠ i → f k = k.requirements) ∧
      controlsOf framework (requireAll f ds) ≠ controlsOf framework ds := by
  classical
  obtain ⟨control, fresh⟩ :=
    Infinite.exists_notMem_finset (insert "" (controlsOf framework ds).toFinset)
  rw [Finset.mem_insert, List.mem_toFinset, not_or] at fresh
  let r : Requirement := ⟨"", control, "", none, []⟩
  let f : Implementation → List Requirement := fun k => if k = i then [r] else k.requirements
  have own : r ∈ (i.require f).requirements := by
    show r ∈ (if i = i then [r] else i.requirements)
    rw [if_pos rfl]
    exact List.mem_singleton_self r
  refine ⟨f, fun k other => if_neg other, fun same => fresh.2 ?_⟩
  rw [← same]
  exact mem_controlsOf.mpr
    ⟨r, mem_namedRequirements.mpr ⟨i.require f, require_mem f member, own, fresh.1⟩, rfl⟩

/-- What is read off the requirements of a framework, and tells its controls, depends on just the
implementations of that framework. -/
theorem dependsOn_iff {α : Type} {read : List Definition → α}
    (determined : ∀ f, requirementsFor framework (requireAll f ds) = requirementsFor framework ds →
      read (requireAll f ds) = read ds)
    (telling : ∀ f, i ∈ implementationsFor framework ds → read (requireAll f ds) = read ds →
      controlsOf framework (requireAll f ds) = controlsOf framework ds) :
    DependsOn read ds i ↔ i ∈ implementationsFor framework ds := by
  constructor
  · rintro ⟨f, others, differ⟩
    by_contra apart
    refine differ (determined f ?_)
    rw [requirementsFor, implementationsFor_require_other others apart]
    rfl
  · intro member
    obtain ⟨f, others, differ⟩ := exists_other_controls member
    exact ⟨f, others, fun same => differ (telling f member same)⟩

theorem dependsOn_template : DependsOn (ScopeConfig.template framework) ds i ↔
    i ∈ implementationsFor framework ds := by
  apply dependsOn_iff
  · intro f same
    apply ScopeConfig.template_congr frameworkFault?_require
    rw [controlsOf, namedRequirements, same]
    rfl
  · intro f member same
    have here := ScopeConfig.template_eq_ok.mpr ⟨⟨i, member⟩, rfl⟩
    rw [← same] at here
    have listed := (ScopeConfig.template_eq_ok.mp here).2
    exact (congrArg ScopeConfig.controls listed).symm

theorem dependsOn_synthesize : DependsOn (Plan.synthesize framework) ds i ↔
    i ∈ implementationsFor framework ds := by
  apply dependsOn_iff
  · intro f same
    have collected : collect framework (requireAll f ds) = collect framework ds := by
      rw [collect, same]
      rfl
    exact funext fun ids => funext fun now =>
      Plan.synthesize_congr frameworkFault?_require collected (fun _ => ruleEntry_require) ids now
  · intro f member same
    have planned := congrFun (congrFun same fun _ => "") ""
    rw [Plan.synthesize_eq_ok ⟨_, require_mem f member⟩,
      Plan.synthesize_eq_ok ⟨i, member⟩] at planned
    have selected := congrArg Plan.reviewed (Except.ok.inj planned)
    rw [wholePlan_reviewed, wholePlan_reviewed] at selected
    have ids := congrArg (fun r : Review => r.selections.map (·.includedIds)) selected
    simpa only [Review.ofIds, List.map_singleton, Selection.includedIds_ofIds, List.cons.injEq,
      and_true] using ids

theorem merged_iff : Merged framework ds i j ↔
    i ∈ implementationsFor framework ds ∧ j ∈ implementationsFor framework ds := by
  rw [Merged, dependsOn_synthesize, dependsOn_synthesize, dependsOn_template, dependsOn_template,
    or_self]

/-! Frameworks named after sources. -/

theorem sourceName_eq (source : String) : (Implementation.sourceName source).toList =
    (trailingSegment source).takeWhile (· ≠ '.') := String.toList_ofList

/-- With no more than one dot, the first one begins the extension. -/
theorem takeWhile_eq_withoutExtension {segment : List Char}
    (plain : '.' ∉ withoutExtension segment) :
    segment.takeWhile (· ≠ '.') = withoutExtension segment := by
  unfold withoutExtension at plain ⊢
  split at plain
  · next dotted =>
    obtain ⟨ending, start, parts, last⟩ :=
      List.eq_append_cons_of_mem (List.mem_reverse.mpr dotted)
    have cut : (segment.reverse.dropWhile (· ≠ '.')).drop 1 = start := by
      rw [parts, List.dropWhile_append_of_pos]
      · simp
      · exact fun c member => decide_eq_true (ne_of_mem_of_not_mem member last)
    have whole : segment = start.reverse ++ '.' :: ending.reverse := by
      rw [← List.reverse_reverse segment, parts]
      simp
    rw [cut] at plain
    rw [if_pos dotted, cut, whole, List.takeWhile_append_of_pos]
    · simp
    · exact fun c member => decide_eq_true (ne_of_mem_of_not_mem member plain)
  · next bare =>
    rw [if_neg bare, List.takeWhile_eq_self_iff]
    exact fun c member => decide_eq_true (ne_of_mem_of_not_mem member bare)

/-- Two implementations that no property assigns to a framework are merged into one exactly if
their sources are named alike up to the first dot. So they are kept apart if what is left of the
trailing segments without the extension differs and has no further dot. -/
theorem sources_kept_apart (hi : i ∈ (componentsOf ds).flatMap Component.implementationList)
    (hj : j ∈ (componentsOf ds).flatMap Component.implementationList)
    (unassigned : i.framework? = none) (unassigned' : j.framework? = none) :
    ((∃ framework, Merged framework ds i j) ↔
      Implementation.sourceName i.source = Implementation.sourceName j.source) ∧
    (withoutExtension (trailingSegment i.source) ≠ withoutExtension (trailingSegment j.source) →
      '.' ∉ withoutExtension (trailingSegment i.source) →
      '.' ∉ withoutExtension (trailingSegment j.source) →
      ¬∃ framework, Merged framework ds i j) := by
  have targets : ∀ k : Implementation, k ∈ (componentsOf ds).flatMap Component.implementationList →
      k.framework? = none → ∀ framework, k ∈ implementationsFor framework ds ↔
        Implementation.sourceName k.source = framework := by
    intro k member unassigned framework
    rw [implementationsFor, List.mem_filter, beq_iff_eq, Implementation.frameworkId, unassigned]
    exact and_iff_right member
  have merged : (∃ framework, Merged framework ds i j) ↔
      Implementation.sourceName i.source = Implementation.sourceName j.source := by
    simp only [merged_iff, targets i hi unassigned, targets j hj unassigned', exists_eq_left']
    exact eq_comm
  refine ⟨merged, ?_⟩
  intro differ plain plain' both
  have same := congrArg String.toList (merged.mp both)
  rw [sourceName_eq, sourceName_eq, takeWhile_eq_withoutExtension plain,
    takeWhile_eq_withoutExtension plain'] at same
  exact differ same

def sourcedImplementation (source control : String) : Implementation :=
  ⟨"1", source, "", none, [⟨"2", control, "", none, []⟩], []⟩

def cisCatalogue : Implementation := sourcedImplementation "catalogues/cis.json" "ac-1"

def nistCatalogue : Implementation := sourcedImplementation "trestle://catalogues/nist" "ac-2"

def firstProfile : Implementation := sourcedImplementation "profiles/linux.v1.json" "ac-3"

def secondProfile : Implementation := sourcedImplementation "profiles/linux.v2.json" "ac-4"

/-- A host that implements two catalogues, and two versions of a profile. -/
def sourcedDefinitions : List Definition :=
  [⟨"3", ⟨"Host", "", "", "", []⟩, some [
    { uuid := "4"
      kind := "service"
      title := "Linux"
      description := ""
      props := none
      implementations := some [cisCatalogue, nistCatalogue, firstProfile, secondProfile]
      others := [] }], []⟩]

theorem sources_kept_apart_catalogues :
    (cisCatalogue ∈ (componentsOf sourcedDefinitions).flatMap Component.implementationList ∧
      nistCatalogue ∈ (componentsOf sourcedDefinitions).flatMap Component.implementationList ∧
      cisCatalogue.framework? = none ∧ nistCatalogue.framework? = none ∧
      withoutExtension (trailingSegment cisCatalogue.source) ≠
        withoutExtension (trailingSegment nistCatalogue.source) ∧
      '.' ∉ withoutExtension (trailingSegment cisCatalogue.source) ∧
      '.' ∉ withoutExtension (trailingSegment nistCatalogue.source)) ∧
    ¬∃ framework, Merged framework sourcedDefinitions cisCatalogue nistCatalogue := by
  have first : cisCatalogue ∈
      (componentsOf sourcedDefinitions).flatMap Component.implementationList := .head _
  have second : nistCatalogue ∈
      (componentsOf sourcedDefinitions).flatMap Component.implementationList := .tail _ (.head _)
  have differ : withoutExtension (trailingSegment cisCatalogue.source) ≠
      withoutExtension (trailingSegment nistCatalogue.source) := by decide +kernel
  have plain : '.' ∉ withoutExtension (trailingSegment cisCatalogue.source) := by decide +kernel
  have plain' : '.' ∉ withoutExtension (trailingSegment nistCatalogue.source) := by decide +kernel
  exact ⟨⟨first, second, rfl, rfl, differ, plain, plain'⟩,
    (sources_kept_apart first second rfl rfl).2 differ plain plain'⟩

/-- The versions of the profile are merged, though their names differ without the extension. -/
theorem profiles_merged :
    (firstProfile ∈ (componentsOf sourcedDefinitions).flatMap Component.implementationList ∧
      secondProfile ∈ (componentsOf sourcedDefinitions).flatMap Component.implementationList ∧
      firstProfile.framework? = none ∧ secondProfile.framework? = none ∧
      withoutExtension (trailingSegment firstProfile.source) ≠
        withoutExtension (trailingSegment secondProfile.source)) ∧
    Merged "linux" sourcedDefinitions firstProfile secondProfile ∧
    ScopeConfig.template "linux" sourcedDefinitions = .ok ⟨"linux", ["ac-3", "ac-4"]⟩ := by
  have targets : firstProfile.frameworkId == "linux" := by decide +kernel
  have targets' : secondProfile.frameworkId == "linux" := by decide +kernel
  have first : firstProfile ∈
      (componentsOf sourcedDefinitions).flatMap Component.implementationList :=
    .tail _ (.tail _ (.head _))
  have second : secondProfile ∈
      (componentsOf sourcedDefinitions).flatMap Component.implementationList :=
    .tail _ (.tail _ (.tail _ (.head _)))
  refine ⟨⟨first, second, rfl, rfl, by decide +kernel⟩, merged_iff.mpr ⟨?_, ?_⟩, by decide +kernel⟩
  · exact List.mem_filter.mpr ⟨first, targets⟩
  · exact List.mem_filter.mpr ⟨second, targets'⟩

end AssessmentPlans
