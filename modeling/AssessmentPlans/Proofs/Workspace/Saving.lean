import AssessmentPlans.Proofs.Calm
import AssessmentPlans.Proofs.Plan.Storable
import AssessmentPlans.Proofs.Scope.Composition

/-! Saving and loading the plan of a workspace. Until the draft takes the plan's place
everything else stays as it was, and a plan that was saved is the one that is loaded. -/
namespace AssessmentPlans

open Job Json

namespace Workspace

variable {w : Workspace} {p : Plan}

theorem planName_proper : Files.Proper planName := ⟨by decide, by decide, by decide⟩

theorem lockName_proper : Files.Proper lockName := ⟨by decide, by decide, by decide⟩

theorem draftName_proper : Files.Proper draftName := ⟨by decide, by decide, by decide⟩

/-- What saving does before the draft takes the plan's place. -/
inductive Drafts (w : Workspace) : Action → Prop where
  | harmless {action : Action} (h : action.Harmless) : w.Drafts action
  | create : w.Drafts (.create w.draftPath)
  | write (text : String) : w.Drafts (.write w.draftPath text)
  | sync : w.Drafts (.sync w.draftPath)

/-- What saving does. -/
inductive Saves (w : Workspace) : Action → Prop where
  | drafts {action : Action} (h : w.Drafts action) : w.Saves action
  | rename : w.Saves (.rename w.draftPath w.planPath)

theorem Drafts.passive {action : Action} (h : action.Passive) : w.Drafts action :=
  .harmless (.inl h)

theorem prepare_within : Within Action.Harmless w.prepare := by
  refine Within.bind (Within.perform (.inl trivial)) fun present => ?_
  cases present with
  | true => exact Within.pure
  | false => exact Within.bind (Within.perform (.inr ⟨_, rfl⟩)) fun _ => Within.orFail

theorem save_within : Within w.Saves (w.save p) := by
  refine Within.bind (prepare_within.mono fun _ h => .drafts (.harmless h)) fun _ => ?_
  refine Within.bind (Within.perform (.drafts .create)) fun _ => ?_
  refine Within.bind Within.orFail fun _ => ?_
  refine Within.bind (Within.perform (.drafts (.write _))) fun _ => ?_
  refine Within.bind Within.orFail fun _ => ?_
  refine Within.bind (Within.perform (.drafts .sync)) fun _ => ?_
  refine Within.bind Within.orFail fun _ => ?_
  exact Within.bind (Within.perform .rename) fun _ => Within.orFail

/-- A plan that has been saved stands in the plan file, whatever the clock has shown meanwhile. -/
theorem save_puts {R : Knowledge} {start : World} : (w.save p).Always (Undisturbed R) (fun _ => True)
    (fun _ x => x.Sees w.planPath p.text) (fun _ _ => True) start := by
  refine Always.bind _ (Always.unconditional w.prepare start) fun _ x _ => ?_
  refine Always.perform_bind trivial fun answer x _ => ?_
  refine Always.orFail_bind (fun _ _ => ?_) fun _ _ => trivial
  refine Always.perform_bind trivial fun answer x written => ?_
  refine Always.orFail_bind (fun _ ok => ?_) fun _ _ => trivial
  cases ok
  refine Always.perform_bind trivial fun answer y synced => ?_
  have drafted := synced.synced.sees written.written
  refine Always.orFail_bind (fun _ _ => ?_) fun _ _ => trivial
  refine Always.perform_bind trivial fun answer z renamed => ?_
  refine Always.orFail (fun _ ok => ?_) fun _ _ => trivial
  cases ok
  exact renamed.renamed drafted

theorem sees_of_save {start : World} (saved : (start.run (w.save p)).1 = .ok ()) :
    (start.run (w.save p)).2.Sees w.planPath p.text := by
  have ended := Job.Ends.undisturbed (Job.along_nothing (w.save p) start)
  rw [saved] at ended
  exact save_puts.ends_ok ended

/-- A plan file with the text of a plan is read as that plan, and nothing is changed. -/
theorem run_plan? {start : World} {s : String} (seen : start.Sees w.planPath s)
    (read : Plan.ofText s = .ok p) : start.run w.plan? = (.ok (some p), start) := by
  unfold plan?
  rw [World.run_bind_of_ok seen.run_isPresent]
  simp only [Bool.not_true, Bool.false_eq_true, if_false]
  rw [World.run_bind_of_ok seen.run_readText]
  rw [World.run_bind_of_ok (World.run_orFail start Job.ioFault s), read]
  rfl

theorem run_plan {start : World} {s : String} (seen : start.Sees w.planPath s)
    (read : Plan.ofText s = .ok p) : start.run w.plan = (.ok p, start) := by
  unfold plan
  rw [World.run_bind_of_ok (run_plan? seen read)]
  rfl

/-- All that is learnt from loading a plan is that it is there, and its text. -/
theorem along_plan {R : Knowledge} {start : World} {s : String} (seen : start.Sees w.planPath s)
    (read : Plan.ofText s = .ok p) (present : R (.isPresent w.planPath) true)
    (text : R (.readText w.planPath) (.ok s)) : Along R start w.plan := by
  have looked : Along R start (Job.isPresent w.planPath) := by
    refine .perform ?_
    rw [World.perform, seen.isPresent]
    exact present
  have answered : Along R start (Job.perform (.readText w.planPath)) := by
    refine .perform ?_
    rw [World.perform, seen.readText]
    exact text
  have found : Along R start w.plan? := by
    unfold plan?
    refine .bind looked seen.run_isPresent ?_
    simp only [Bool.not_true, Bool.false_eq_true, if_false]
    refine .bind answered seen.run_readText (.bind trivial (World.run_orFail start Job.ioFault s) ?_)
    rw [read]
    trivial
  exact .bind found (run_plan? seen read) trivial

end Workspace

/-- Writing a plan and reading it back loses nothing, on its own as well as through a
workspace. This holds of every plan that a text stands for, or that has been built, and
after any number of changes. -/
theorem plan_round_trip {p : Plan} (h : p.Arises) :
    Plan.ofText p.text = .ok p ∧ ∀ (w : Workspace) (start : World),
      (start.run (w.save p)).1 = .ok () →
      (World.run (start.run (w.save p)).2 w.plan?).1 = .ok (some p) := by
  refine ⟨h.storable.ofText_text, ?_⟩
  intro w start saved
  rw [Workspace.run_plan? (Workspace.sees_of_save saved) h.storable.ofText_text]

/-- A world without files. -/
def World.bare : World where
  files := .empty
  here := []
  time := ⟨19782, 43200, 0⟩
  given := 0
  identifier n := "00000000-0000-4000-8000-00000000000" ++ toString n
  output := ""
  back := []

theorem twoActivities_storable : twoActivities.Storable := by
  have parties : Remainder Value.Whole 124 Metadata.fields.names [("parties",
      Value.array [.object [("order", .number (.integer (-7))), ("uuid", .text "p")]])] := by
    refine ⟨List.pairwise_singleton _ _, by decide, ?_, ?_⟩
    · have ordered : "order" < "uuid" := by decide
      simp only [List.forall_mem_singleton, Value.Canonical, Value.CanonicalItems,
        Value.CanonicalMembers, List.pairwise_cons, ordered]
      exact ⟨123, rfl, ⟨122, rfl, ⟨trivial, List.forall_mem_nil _, .nil⟩, trivial, trivial, trivial⟩, trivial⟩
    · simp [Value.Whole, Value.WholeItems, Value.WholeMembers, Number.Whole]
  have subjects : Remainder Value.Whole 122 Activity.fields.names [("subjects", Value.null)] :=
    ⟨List.pairwise_singleton _ _, by decide, by simp [Value.Canonical], by simp [Value.Whole]⟩
  have matter : Remainder Value.Whole 125 Plan.fields.names [("back-matter", Value.object [])] :=
    ⟨List.pairwise_singleton _ _, by decide, by simp [Value.Canonical, Value.CanonicalMembers],
      by simp [Value.Whole, Value.WholeMembers]⟩
  simp only [Plan.Storable, Plan.memberRoom, depthLimit, twoActivities, Plan.every_iff,
    LocalDefinitions.every_iff, Activity.every_iff, Step.every_iff, Review.every_iff,
    Selection.every_iff, EveryProps, Property.Every, Metadata.Every, SystemPlan.Every,
    Review.ofIds, Selection.ofIds, Property.ofTool]
  simp [Remainder.nil, parties, subjects, matter]

/-- The sample plan, read from its text, changed twice. -/
def twoActivitiesChanged : Plan :=
  (twoActivities.touch ⟨19782, 43200, 0⟩).tailor (ScopeConfig.mk "f" ["ac-1"]).scope.controls

theorem plan_round_trip_twoActivities :
    Plan.ofText twoActivities.text = .ok twoActivities ∧ twoActivities.WholeNumbers ∧
      twoActivitiesChanged.Arises ∧
      Plan.ofText twoActivitiesChanged.text = .ok twoActivitiesChanged ∧
      (World.bare.run (Workspace.save ⟨⟨"./complytime"⟩⟩ twoActivitiesChanged)).1 = .ok () ∧
      (World.run (World.bare.run (Workspace.save ⟨⟨"./complytime"⟩⟩ twoActivitiesChanged)).2
        (Workspace.plan? ⟨⟨"./complytime"⟩⟩)).1 = .ok (some twoActivitiesChanged) := by
  have read := twoActivities_storable.ofText_text
  have whole := twoActivities_storable.wholeNumbers
  have arises : twoActivitiesChanged.Arises :=
    .tailored (ScopeConfig.mk "f" ["ac-1"]).scope (.touched _ (.read read whole))
  have saved : (World.bare.run (Workspace.save ⟨⟨"./complytime"⟩⟩ twoActivitiesChanged)).1 =
      .ok () := rfl
  obtain ⟨again, loaded⟩ := plan_round_trip arises
  exact ⟨read, whole, arises, again, saved, loaded _ _ saved⟩

end AssessmentPlans
