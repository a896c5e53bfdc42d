import AssessmentPlans.Proofs.Command.Reading
import AssessmentPlans.Proofs.Execution
import AssessmentPlans.Proofs.Scope.Validity
import AssessmentPlans.Proofs.Workspace.Locking

/-! The commands and the plan of a workspace. Up to the one step in which a plan is put in place a
command does no more than to draft a plan and to lock the workspace, and what comes after that step
can only fail to give the lock back or to print. -/
namespace AssessmentPlans

open Job

theorem Plan.Valid.touch {p : Plan} (h : p.Valid) (now : Instant) : (p.touch now).Valid :=
  ⟨h.uuid, h.title, h.activities, h.names⟩

/-- What the pipeline builds can be stored and is valid. -/
theorem runPipeline_sound {framework : String} {ds : List Definition} {scope : Option Scope}
    {ids : Nat → String} {now : String} {p : Plan}
    (h : (runPipeline framework ds scope ids now).2 = .ok p) : p.Storable ∧ p.Valid := by
  unfold runPipeline at h
  cases built : Plan.synthesize framework ds ids now with
  | error fault =>
      rw [built] at h
      cases h
  | ok whole =>
      have storable := Plan.storable_of_synthesize built
      rw [built] at h
      dsimp only at h
      split at h
      · cases h
      · next verdict =>
        cases h
        exact ⟨storable, Plan.issues_errors_eq_nil.mp (Issues.verdict_eq_ok.mp verdict)⟩
      · next chosen _ =>
        obtain ⟨issues, validated, rfl⟩ := map_eq_ok.mp h
        exact ⟨storable.tailor chosen.controls, Plan.valid_of_validate validated⟩

section Commands

variable {w : Workspace} {launch : Launch} {format : OutputFormat} {framework : String}
  {ds : List Definition} {scope : Option Scope}

/-- Builds the plan and writes it. -/
def writePlan (launch : Launch) (format : OutputFormat) (w : Workspace) (framework : String)
    (ds : List Definition) (scope : Option Scope) : Job Unit := do
  let style := styleOf launch format
  let (plan, report) ← buildPlan framework ds scope
  if scope.isSome then emit (style.report report)
  let plan := plan.touch (← Job.perform .now)
  w.locked launch (w.save plan)
  Job.tell (style.success ("Assessment plan written to " ++ w.planPath.text))

theorem runPlan_eq {bundles : Option Path} {dryRun tailored : Bool} :
    runPlan launch format w bundles framework dryRun tailored = (do
      let ds ← loadDefinitions launch bundles
      if dryRun then showTemplate framework ds
      else if tailored then do
        let (c, launch) ← loadValid launch w.root none (some framework)
        writePlan launch format w framework ds (some c.scope)
      else writePlan launch format w framework ds none) := by
  unfold runPlan
  apply congrArg (bind (loadDefinitions launch bundles))
  funext ds
  cases dryRun with
  | true => rfl
  | false =>
      cases tailored with
      | true => rfl
      | false => rfl

theorem plan_timeless : Within Action.Timeless w.plan := by
  have found : Within Action.Timeless w.plan? := by
    unfold Workspace.plan?
    refine Within.bind (Within.perform trivial) fun present => ?_
    split
    · exact Within.pure
    · refine Within.bind (Within.perform trivial) fun answer => Within.bind Within.orFail fun s => ?_
      split
      · exact Within.pure
      · exact Within.throw
  refine Within.bind found fun p => ?_
  cases p with
  | some p => exact Within.pure
  | none => exact Within.throw

theorem plan_within : Within Action.Passive w.plan :=
  plan_timeless.mono fun _ => Action.Timeless.passive

theorem tailorSaved_within {scope : Scope} : Within w.Saves (tailorSaved w scope) := by
  refine Within.bind (plan_within.mono fun _ h => .drafts (.passive h)) fun p => ?_
  refine Within.bind (Within.forM fun _ => Within.perform (.drafts (.passive trivial))) fun _ => ?_
  cases verdict : (p.tailor scope.controls).validate with
  | error fault => exact Within.throw
  | ok issues =>
      refine Within.bind (Within.perform (.drafts (.passive trivial))) fun now => ?_
      exact Within.bind Workspace.save_within fun _ => Within.pure

theorem runValidate_timeless {warnings : Bool} :
    Within Action.Timeless (runValidate launch format w warnings) := by
  refine Within.bind plan_timeless fun p => Within.bind emit_timeless fun _ => ?_
  split
  · exact Within.pure
  · exact Within.throw

theorem runValidate_within {warnings : Bool} :
    Within Action.Passive (runValidate launch format w warnings) :=
  runValidate_timeless.mono fun _ => Action.Timeless.passive

theorem runList_within {bundles : Option Path} :
    Within Action.Harmless (runList launch format bundles) :=
  Within.bind loadDefinitions_within fun _ => emit_within.mono fun _ => .inl

end Commands

/-- The workspace that an invocation is about. -/
def Invocation.workspaceOf (i : Invocation) : Workspace := ⟨⟨i.workspace⟩⟩

/-- The command writes a plan if it succeeds. -/
def Command.Writes : Command → Prop
  | .plan _ dryRun _ => dryRun = false
  | .tailor _ => True
  | .validate _ | .list => False

variable {σ α β : Type} {env : Surroundings σ} {fit : Plan → Prop} {before after P : σ → Prop}
  {s : σ} {w : Workspace} {launch : Launch} {job : Job α} {post : α → σ → Prop}

namespace Workspace

/-- What is done besides putting a plan in place. -/
inductive Spares (w : Workspace) : Action → Prop where
  | locks {action : Action} (h : w.Locks action) : w.Spares action
  | drafts {action : Action} (h : w.Drafts action) : w.Spares action

theorem Spares.harmless {action : Action} (h : action.Harmless) : w.Spares action :=
  .drafts (.harmless h)

theorem Spares.passive {action : Action} (h : action.Passive) : w.Spares action :=
  .drafts (.passive h)

/-- What lasts while no plan is put in place. -/
def Lasts (w : Workspace) (env : Surroundings σ) (P : σ → Prop) : Prop :=
  ∀ s action answer t, w.Spares action → env s action answer t → P s → P t

/-- What holds until a plan is put in place, and what holds from then on, if only plans that are fit
are saved: that they are is known where they are built, and of one that is read before it is
tailored. -/
structure Sheltered (w : Workspace) (env : Surroundings σ) (fit : Plan → Prop)
    (before after : σ → Prop) : Prop where
  early : w.Lasts env before
  late : w.Lasts env after
  built : ∀ (p : Plan) (now : Instant), p.Storable → p.Valid → fit (p.touch now)
  read : ∀ s, before s → w.plan.Always env before
    (fun p t => (∀ controls now, (p.tailor controls).Valid → fit ((p.tailor controls).touch now)) ∧
      before t) (fun _ => before) s
  saved : ∀ p s, fit p → before s →
    (w.save p).Always env (fun t => before t ∨ after t) (fun _ => after) (fun _ => before) s

/-- The fault is that of giving the lock back, or of printing. -/
def Excused (w : Workspace) (env : Surroundings σ) (job : Job α) (s : σ) (fault : Fault) (t : σ) : Prop :=
  (∃ id, job.FailsIn env s (w.release id) fault t) ∨ ∃ text, job.FailsIn env s (emit text) fault t

/-- No plan has been put in place if the job fails, unless the fault is excused. -/
def Guarded (w : Workspace) (env : Surroundings σ) (before after : σ → Prop) (job : Job α)
    (post : α → σ → Prop) (s : σ) : Prop :=
  job.Always env (fun t => before t ∨ after t) post
    (fun fault t => before t ∨ after t ∧ w.Excused env job s fault t) s

namespace Guarded

theorem of_always (h : job.Always env (fun t => before t ∨ after t) post (fun _ => before) s) :
    w.Guarded env before after job post s :=
  h.mono (fun _ h => h) (fun _ _ h => h) fun _ _ => .inl

theorem bind {f : α → Job β} {post : β → σ → Prop} (mid : α → σ → Prop)
    (first : w.Guarded env before after job mid s)
    (next : ∀ a t, mid a t → w.Guarded env before after (f a) post t) :
    w.Guarded env before after (job >>= f) post s := by
  refine Always.bind _ (first.with_ends.mono (fun _ h => h) (fun _ _ h => h) ?_) ?_
  · rintro fault t ⟨early | ⟨late, ⟨id, failed⟩ | ⟨text, failed⟩⟩, _⟩
    · exact .inl early
    · exact .inr ⟨late, .inl ⟨id, failed.first f⟩⟩
    · exact .inr ⟨late, .inr ⟨text, failed.first f⟩⟩
  · rintro a t ⟨met, ends⟩
    refine (next a t met).mono (fun _ h => h) (fun _ _ h => h) ?_
    rintro fault u (early | ⟨late, ⟨id, failed⟩ | ⟨text, failed⟩⟩)
    · exact .inl early
    · exact .inr ⟨late, .inl ⟨id, failed.after ends⟩⟩
    · exact .inr ⟨late, .inr ⟨text, failed.after ends⟩⟩

theorem mono {post' : α → σ → Prop} (h : w.Guarded env before after job post s)
    (weaker : ∀ a t, post a t → post' a t) : w.Guarded env before after job post' s :=
  Always.mono h (fun _ h => h) weaker fun _ _ h => h

theorem lasting (h : w.Lasts env P) (part : ∀ t, P t → before t ∨ after t)
    (within : Within w.Spares job)
    (excused : ∀ fault t, job.FailsIn env s job fault t → w.Excused env job s fault t) (met : P s) :
    w.Guarded env before after job (fun _ => P) s := by
  refine (within.always h met).with_ends.mono part (fun _ _ h => h.1) ?_
  rintro fault t ⟨met, ends⟩
  rcases part t met with early | late
  · exact .inl early
  · exact .inr ⟨late, excused fault t (.self ends)⟩

theorem emit (h : w.Lasts env P) (part : ∀ t, P t → before t ∨ after t) {text : String} (met : P s) :
    w.Guarded env before after (emit text) (fun _ => P) s :=
  lasting h part (emit_within.mono fun _ => .passive) (fun _ _ failed => .inr ⟨text, failed⟩) met

theorem release (h : w.Lasts env P) (part : ∀ t, P t → before t ∨ after t) {id : String} (met : P s) :
    w.Guarded env before after (w.release id) (fun _ => P) s :=
  lasting h part (release_within.mono fun _ => .locks) (fun _ _ failed => .inl ⟨id, failed⟩) met

theorem tell (h : w.Lasts env P) (part : ∀ t, P t → before t ∨ after t) {line : String} (met : P s) :
    w.Guarded env before after (Job.tell line) (fun _ => P) s :=
  Always.perform (part s met) fun answer t done => h s (.tell line) answer t (.passive trivial) done met

end Guarded

namespace Sheltered

variable {format : OutputFormat} {framework : String} {ds : List Definition} {scope : Option Scope}
  {bundles file : Option Path}

/-- What comes before the plan is put in place. -/
theorem preparing (h : w.Sheltered env fit before after) (within : Within w.Spares job)
    (met : before s) :
    job.Always env (fun t => before t ∨ after t) (fun _ => before) (fun _ => before) s :=
  (within.always h.early met).mono (fun _ => .inl) (fun _ _ h => h) fun _ _ h => h

theorem spares (h : w.Sheltered env fit before after) (within : Within w.Spares job)
    (met : before s) : w.Guarded env before after job (fun _ => before) s :=
  .of_always (h.preparing within met)

/-- The lock adds no fault but that of giving it back. -/
theorem locked (h : w.Sheltered env fit before after)
    (writes : ∀ s, before s →
      job.Always env (fun t => before t ∨ after t) (fun _ => after) (fun _ => before) s)
    (met : before s) : w.Guarded env before after (w.locked launch job) (fun _ => after) s := by
  have acquired : Within w.Spares (w.acquire launch "") := acquire_within.mono fun _ => .locks
  refine .bind _ (h.spares acquired met) fun lock s met => ?_
  refine .bind _ (.of_always (writes s met).attempt) fun result s met => ?_
  cases result with
  | ok a => exact .bind _ (.release h.late (fun _ => .inr) met) fun _ s met => Always.pure met
  | error fault =>
      exact .bind _ (.release h.early (fun _ => .inl) met) fun _ s met => Always.throw (.inl met)

theorem buildPlan (h : w.Sheltered env fit before after) (met : before s) :
    w.Guarded env before after (buildPlan framework ds scope)
      (fun built t => (∀ now, fit (built.1.touch now)) ∧ before t) s := by
  have ids : ∀ n, Within w.Spares (freshIds n) := fun _ => freshIds_within.mono fun _ => .passive
  have warned : ∀ lines : List String, Within w.Spares (lines.forM warn) :=
    fun _ => warnings_within.mono fun _ => .passive
  have now : Within w.Spares (Job.perform .now) := Within.perform (.passive trivial)
  refine .bind _ (h.spares (ids _) met) fun ids s met => ?_
  refine .bind _ (h.spares now met) fun now s met => ?_
  refine .bind _ (h.spares (warned _) met) fun _ s met => ?_
  split
  · exact Always.throw (.inl met)
  · next plan built =>
    obtain ⟨storable, valid⟩ := runPipeline_sound built
    exact Always.pure ⟨fun now => h.built plan now storable valid, met⟩

theorem writePlan (h : w.Sheltered env fit before after) (met : before s) :
    w.Guarded env before after (writePlan launch format w framework ds scope) (fun _ => after) s := by
  have now : Within w.Spares (Job.perform .now) := Within.perform (.passive trivial)
  refine .bind _ (h.buildPlan met) ?_
  rintro built s ⟨fits, met⟩
  have saved : ∀ s, before s → w.Guarded env before after (do
      let now ← Job.perform .now
      w.locked launch (w.save (built.1.touch now))
      Job.tell ((styleOf launch format).success ("Assessment plan written to " ++ w.planPath.text)))
      (fun _ => after) s := by
    intro s met
    refine .bind _ (h.spares now met) fun now s met => ?_
    refine .bind _ (h.locked (fun s => h.saved _ s (fits now)) met) fun _ s met => ?_
    exact .tell h.late (fun _ => .inr) met
  dsimp only
  split
  · exact .bind _ (.emit h.early (fun _ => .inl) met) fun _ => saved
  · exact saved s met

theorem tailorSaved {scope : Scope} (h : w.Sheltered env fit before after) (met : before s) :
    (tailorSaved w scope).Always env (fun t => before t ∨ after t) (fun _ => after)
      (fun _ => before) s := by
  refine Always.bind _ ((h.read s met).mono (fun _ => .inl) (fun _ _ h => h) fun _ _ h => h) ?_
  rintro p s ⟨fits, met⟩
  have warned : ∀ lines : List String, Within w.Spares (lines.forM warn) :=
    fun _ => warnings_within.mono fun _ => .passive
  dsimp only [tailorPlan]
  refine Always.bind _ (h.preparing (warned _) met) fun _ s met => ?_
  cases verdict : (p.tailor scope.controls).validate with
  | error fault => exact Always.throw met
  | ok issues =>
      refine Always.perform_bind (.inl met) fun now t done => ?_
      have met := h.early s .now now t (.passive trivial) done met
      have fits := fits scope.controls now (Plan.valid_of_validate verdict)
      exact Always.bind _ (h.saved _ t fits met) fun _ _ late => Always.pure late

theorem loadDefinitions (h : w.Sheltered env fit before after) (met : before s) :
    w.Guarded env before after (loadDefinitions launch bundles) (fun _ => before) s :=
  h.spares (loadDefinitions_within.mono fun _ => .harmless) met

theorem loadValid {root : Path} {expected : Option String} (h : w.Sheltered env fit before after)
    (met : before s) :
    w.Guarded env before after (loadValid launch root file expected) (fun _ => before) s :=
  h.spares (loadValid_within.mono fun _ => .passive) met

theorem showTemplate (h : w.Sheltered env fit before after) (met : before s) :
    w.Guarded env before after (showTemplate framework ds) (fun _ => before) s := by
  unfold AssessmentPlans.showTemplate
  split
  · exact Always.throw (.inl met)
  · exact .emit h.early (fun _ => .inl) met

theorem runPlan {dryRun tailored : Bool} (h : w.Sheltered env fit before after) (met : before s) :
    w.Guarded env before after (runPlan launch format w bundles framework dryRun tailored)
      (fun _ t => (dryRun = false → after t) ∧ (before t ∨ after t)) s := by
  rw [runPlan_eq]
  refine .bind _ (h.loadDefinitions met) fun ds s met => ?_
  cases dryRun with
  | true => exact (h.showTemplate met).mono fun _ _ early => ⟨nofun, .inl early⟩
  | false =>
      have written : ∀ launch scope s, before s →
          w.Guarded env before after (AssessmentPlans.writePlan launch format w framework ds scope)
            (fun _ t => (false = false → after t) ∧ (before t ∨ after t)) s :=
        fun _ _ _ met => (h.writePlan met).mono fun _ _ late => ⟨fun _ => late, .inr late⟩
      cases tailored with
      | true => exact .bind _ (h.loadValid met) fun _ s met => written _ _ s met
      | false => exact written _ _ s met

theorem runTailor (h : w.Sheltered env fit before after) (met : before s) :
    w.Guarded env before after (runTailor launch format w file) (fun _ => after) s := by
  refine .bind _ (h.loadValid met) fun config s met => ?_
  refine .bind _ (h.locked (fun _ => h.tailorSaved) met) fun _ s met => ?_
  exact .bind _ (.emit h.late (fun _ => .inr) met) fun _ s met => .tell h.late (fun _ => .inr) met

theorem runValidate {warnings : Bool} (h : w.Sheltered env fit before after) (met : before s) :
    w.Guarded env before after (runValidate launch format w warnings) (fun _ => before) s := by
  refine .bind _ (h.spares (plan_within.mono fun _ => .passive) met) fun p s met => ?_
  refine .bind _ (.emit h.early (fun _ => .inl) met) fun _ s met => ?_
  split
  · exact Always.pure met
  · exact Always.throw (.inl met)

theorem runList (h : w.Sheltered env fit before after) (met : before s) :
    w.Guarded env before after (runList launch format bundles) (fun _ => before) s :=
  .bind _ (h.loadDefinitions met) fun _ _ met => .emit h.early (fun _ => .inl) met

end Sheltered
end Workspace

/-- A command that succeeds has put a plan in place, if it is one that writes a plan. One that fails
has put none in place, unless its fault is excused. -/
theorem Invocation.guarded (i : Invocation) (h : i.workspaceOf.Sheltered env fit before after)
    (met : before s) :
    i.workspaceOf.Guarded env before after (i.run launch)
      (fun _ t => (i.command.Writes → after t) ∧ (before t ∨ after t)) s := by
  unfold Invocation.run
  dsimp only
  split
  · next command =>
    rw [command]
    exact h.runPlan met
  · next command =>
    rw [command]
    exact (h.runTailor met).mono fun _ _ late => ⟨fun _ => late, .inr late⟩
  · next command =>
    rw [command]
    exact (h.runValidate met).mono fun _ _ early => ⟨False.elim, .inl early⟩
  · next command =>
    rw [command]
    exact (h.runList met).mono fun _ _ early => ⟨False.elim, .inl early⟩

end AssessmentPlans
