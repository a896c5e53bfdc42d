import AssessmentPlans.Proofs.Command.Success
import AssessmentPlans.Proofs.Execution

/-! The course of a command. Until it takes the lock it changes nothing that is there, what it
does under the lock is to save a plan, and when the lock has been given back it only reports. -/
namespace AssessmentPlans

open Job

variable {σ α : Type} {env : Surroundings σ} {inv before after : σ → Prop} {s : σ} {job : Job α}
  {w : Workspace} {launch : Launch} {format : OutputFormat} {framework : String}
  {ds : List Definition} {scope : Option Scope}

theorem buildPlan_within : Within Action.Passive (buildPlan framework ds scope) := by
  unfold buildPlan
  refine Within.bind freshIds_within fun ids => Within.bind (Within.perform trivial) fun now => ?_
  refine Within.bind warnings_within fun _ => ?_
  split
  · exact Within.throw
  · exact Within.pure

/-- What holds before the lock of a run, and what holds behind it. -/
structure Workspace.Phases (w : Workspace) (env : Surroundings σ) (inv before after : σ → Prop) :
    Prop where
  harmless : ∀ s action answer t, action.Harmless → env s action answer t → before s → before t
  passive : ∀ s action answer t, action.Passive → env s action answer t → after s → after t
  early : ∀ s, before s → inv s
  late : ∀ s, after s → inv s
  locked : ∀ {α : Type} (launch : Launch) (job : Job α) (s : σ), Within w.Saves job → before s →
    (w.locked launch job).Always env inv (fun _ => after) (fun _ t => before t ∨ after t) s

namespace Workspace.Phases

theorem prelude (h : w.Phases env inv before after) (within : Within Action.Harmless job)
    (met : before s) :
    job.Always env inv (fun _ => before) (fun _ t => before t ∨ after t) s :=
  (within.always h.harmless met).mono h.early (fun _ _ h => h) fun _ _ => .inl

theorem sequel (h : w.Phases env inv before after) (within : Within Action.Passive job)
    (met : after s) :
    job.Always env inv (fun _ t => before t ∨ after t) (fun _ t => before t ∨ after t) s :=
  (within.always h.passive met).mono h.late (fun _ _ => .inr) fun _ _ => .inr

/-- A command that takes no lock. -/
theorem unlocked (h : w.Phases env inv before after) (within : Within Action.Harmless job)
    (met : before s) :
    job.Always env inv (fun _ t => before t ∨ after t) (fun _ t => before t ∨ after t) s :=
  (h.prelude within met).mono (fun _ h => h) (fun _ _ => .inl) fun _ _ h => h

theorem writePlan (h : w.Phases env inv before after) (met : before s) :
    (writePlan launch format w framework ds scope).Always env inv (fun _ t => before t ∨ after t)
      (fun _ t => before t ∨ after t) s := by
  have written : ∀ (p : Plan) (s : σ), before s → Job.Always env inv (do
        let now ← Job.perform .now
        w.locked launch (w.save (p.touch now))
        Job.tell ((styleOf launch format).success ("Assessment plan written to " ++ w.planPath.text)))
      (fun _ t => before t ∨ after t) (fun _ t => before t ∨ after t) s := by
    intro p s met
    refine Always.bind _ (h.prelude (Within.perform (.inl trivial)) met) fun now t met => ?_
    refine Always.bind _ (h.locked launch _ t Workspace.save_within met) fun _ t met => ?_
    exact h.sequel (Within.perform trivial) met
  have built : Within Action.Harmless (buildPlan framework ds scope) := buildPlan_within.mono fun _ => .inl
  refine Always.bind _ (h.prelude built met) fun built t met => ?_
  dsimp only
  split
  · refine Always.bind _ (h.prelude (emit_within.mono fun _ => .inl) met) fun _ t met => ?_
    exact written built.1 t met
  · exact written built.1 t met

theorem runPlan {bundles : Option Path} {dryRun tailored : Bool} (h : w.Phases env inv before after)
    (met : before s) :
    (runPlan launch format w bundles framework dryRun tailored).Always env inv
      (fun _ t => before t ∨ after t) (fun _ t => before t ∨ after t) s := by
  rw [runPlan_eq]
  refine Always.bind _ (h.prelude loadDefinitions_within met) fun ds t met => ?_
  split
  · exact h.unlocked (showTemplate_within.mono fun _ => .inl) met
  · split
    · refine Always.bind _ (h.prelude (loadValid_within.mono fun _ => .inl) met) ?_
      exact fun _ _ met => h.writePlan met
    · exact h.writePlan met

theorem runTailor {file : Option Path} (h : w.Phases env inv before after) (met : before s) :
    (runTailor launch format w file).Always env inv (fun _ t => before t ∨ after t)
      (fun _ t => before t ∨ after t) s := by
  refine Always.bind _ (h.prelude (loadValid_within.mono fun _ => .inl) met) fun config t met => ?_
  refine Always.bind _ (h.locked _ _ t tailorSaved_within met) fun report t met => ?_
  exact h.sequel report_within met

end Workspace.Phases

theorem Invocation.phases (i : Invocation) (h : i.workspaceOf.Phases env inv before after)
    (met : before s) :
    (i.run launch).Always env inv (fun _ t => before t ∨ after t) (fun _ t => before t ∨ after t) s := by
  unfold Invocation.run
  dsimp only
  split
  · exact h.runPlan met
  · exact h.runTailor met
  · exact h.unlocked (runValidate_within.mono fun _ => .inl) met
  · exact h.unlocked runList_within met

/-- What holds before the lock and behind it, and in between, holds at each point of a run. -/
theorem Invocation.point (i : Invocation) {part : Program (Except Fault Unit)} {t : σ}
    (h : i.workspaceOf.Phases env inv before after) (met : before s)
    (led : Program.Leads env (ExceptT.run (i.run launch)) s part t) : inv t := by
  have always : (i.run launch).Always env inv _ _ s := i.phases h met
  rcases Program.Always.point always led with now | ⟨result, _, ended⟩
  · exact now
  · cases result with
    | ok _ => exact ended.elim (h.early t) (h.late t)
    | error fault => exact ended.elim (h.early t) (h.late t)

/-- A run of any command ends before its lock or behind it, whether it fails or not. -/
theorem Invocation.ends (i : Invocation) {result : Except Fault Unit} {t : σ}
    (h : i.workspaceOf.Phases env inv before after) (met : before s)
    (ended : (i.run launch).Ends env s result t) : before t ∨ after t := by
  have always : (i.run launch).Always env inv _ _ s := i.phases h met
  cases result with
  | ok _ => exact always.ends_ok ended
  | error fault => exact always.ends_error ended

end AssessmentPlans
