import AssessmentPlans.Proofs.Command.Abandonment
import AssessmentPlans.Proofs.Command.Atomicity
import AssessmentPlans.Proofs.Workspace.Returning

/-! No command leaves a lock of its own behind. Whether it fails, and where, makes no difference,
as long as it is alone and can do what it does on the lock file. -/
namespace AssessmentPlans

open Job

namespace Workspace

variable {w : Workspace} {start : World} {launch : Launch} {holder : String}
  {result : Except Fault Lock} {s t : World × List Deed}

theorem spared_phases : w.Phases (Recorded (Sparing w.lockPath)) (fun _ => True)
    (Untouched (Deed.made w.lockPath) start) fun s => w.Unheld s.1 ∧ w.Claimed start s.2 where
  harmless _ _ _ _ harmless done h :=
    h.step harmless (Deed.made_eq_false harmless) ⟨done.1.disturbed, done.2⟩
  passive _ _ _ _ passive done h :=
    ⟨h.1.stays (done.1.disturbed.stays passive), done.2 ▸ h.2.cons _⟩
  early _ _ := trivial
  late _ _ := trivial
  locked _ _ _ within h := locked_spared within h

theorem disturbed_phases : w.Phases (Recorded Disturbed) (w.Guarding start)
    (Untouched (Deed.creates w.lockPath) start) fun s => w.Begun s.2 where
  harmless _ _ _ _ harmless done h := h.step harmless (Deed.creates_eq_false harmless) done
  passive _ _ _ _ _ done h := done.2 ▸ h.cons _
  early _ := .inl
  late _ := .inr
  locked _ _ _ _ h := locked_disturbed h

theorem Untouched.retains {mark : Deed → Bool} (h : Untouched mark start s)
    (p : Path) : World.Retains p start s.1 where
  leads _ leads := h.here ▸ Files.locate_mono h.furnished.directories leads
  same t _ := h.furnished.files t

theorem Untouched.of_unmarked {mark : Deed → Bool} (h : s.2.any mark = false) : Untouched mark s.1 s :=
  ⟨rfl, .refl _, h⟩

/-- Unless an action fails, taking the lock succeeds if the lock file is made. -/
theorem acquire_made
    (call : (w.acquire launch holder).Ends (Recorded (Sparing w.lockPath)) s result t)
    (first : s.2.any (Deed.creates w.lockPath) = false) :
    (∃ lock, result = .ok lock) ↔ t.2.any (Deed.made w.lockPath) = true := by
  have unmade : s.2.any (Deed.made w.lockPath) = false := by
    rw [List.any_eq_false] at first ⊢
    exact fun d member made => first d member (Deed.creates_of_made made)
  cases result with
  | ok lock =>
      obtain ⟨_, claimed⟩ := (acquire_spared (.of_unmarked unmade)).ends_ok call
      exact iff_of_true ⟨lock, rfl⟩ claimed.made
  | error fault =>
      have untouched := (acquire_spared (.of_unmarked unmade)).ends_error call
      refine iff_of_false nofun ?_
      rw [untouched.unmarked]
      exact nofun

/-- Whatever fails, taking the lock succeeds if the lock file was to be made, and this has not
failed. -/
theorem acquire_begun (call : (w.acquire launch holder).Ends (Recorded Disturbed) s result t)
    (first : s.2.any (Deed.creates w.lockPath) = false)
    (other : ∀ m, result ≠ .error (.workspace (.lockFailed m))) :
    (∃ lock, result = .ok lock) ↔ t.2.any (Deed.creates w.lockPath) = true := by
  cases result with
  | ok lock => exact iff_of_true ⟨lock, rfl⟩ ((acquire_disturbed (.of_unmarked first)).ends_ok call)
  | error fault =>
      rcases (acquire_disturbed (.of_unmarked first)).ends_error call with untouched | ⟨_, m, rfl⟩
      · refine iff_of_false nofun ?_
        rw [untouched.unmarked]
        exact nofun
      · exact absurd rfl (other m)

end Workspace

/-- A run of any command, while nobody else does anything to the files. Let any actions fail but
those on the lock file: if the run has made a lock file then no lock was in the way, and there is no
lock file in the end, whatever the run ends with; if it has made none, the lock file is as it was. Let
any actions fail: at each point of the run, unless it has come to making a lock file, the lock file is
as it was. To take the lock is to make the lock file, and a lock that is refused has none made. -/
theorem lock_given_back (launch : Launch) (i : Invocation) (start : World) :
    (∀ result x log,
      (i.run launch).Ends (Recorded (Sparing i.workspaceOf.lockPath)) (start, []) result (x, log) →
        (log.any (Deed.made i.workspaceOf.lockPath) = true →
          i.workspaceOf.Unheld x ∧ ∃ now, ⟨.now, now⟩ ∈ log ∧ i.workspaceOf.Vacant start now) ∧
        (log.any (Deed.made i.workspaceOf.lockPath) = false →
          World.Retains i.workspaceOf.lockPath start x)) ∧
    (∀ part x log, Program.Leads (Recorded Disturbed) (ExceptT.run (i.run launch)) (start, []) part (x, log) →
      log.any (Deed.creates i.workspaceOf.lockPath) = false →
        World.Retains i.workspaceOf.lockPath start x) ∧
    ∀ (w : Workspace) (launch : Launch) (holder : String) result s t,
      s.2.any (Deed.creates w.lockPath) = false →
        ((w.acquire launch holder).Ends (Recorded (Sparing w.lockPath)) s result t →
          ((∃ lock, result = .ok lock) ↔ t.2.any (Deed.made w.lockPath) = true)) ∧
        ((w.acquire launch holder).Ends (Recorded Disturbed) s result t →
          (∀ m, result ≠ .error (.workspace (.lockFailed m))) →
            ((∃ lock, result = .ok lock) ↔ t.2.any (Deed.creates w.lockPath) = true)) := by
  refine ⟨?_, ?_, ?_⟩
  · intro result x log ended
    rcases i.ends Workspace.spared_phases (.refl _ start) ended with untouched | ⟨gone, claimed⟩
    · refine ⟨fun made => ?_, fun _ => untouched.retains _⟩
      cases untouched.unmarked.symm.trans made
    · refine ⟨fun _ => ⟨gone, claimed.cleared⟩, fun unmade => ?_⟩
      cases unmade.symm.trans claimed.made
  · intro part x log led early
    have guarding : i.workspaceOf.Guarding start (x, log) :=
      i.point Workspace.disturbed_phases (.refl _ start) led
    rcases guarding with untouched | begun
    · exact untouched.retains _
    · cases early.symm.trans begun
  · intro w launch holder result s t first
    exact ⟨fun call => Workspace.acquire_made call first, fun call => Workspace.acquire_begun call first⟩

theorem Sparing.answers (p : Path) (w : World) (action : Action) (timely : w.time.Timely) :
    Sparing p w action (w.perform action).1 (w.perform action).2 :=
  .inl ⟨w, .refl w, timely, rfl⟩

/-! A run that tailors a plan where there is no lock, and where somebody else holds one. -/
namespace Alone

open Interrupted (side start)
open Sample (launch invocation site own)

/-- What is done, and what there is in the end. -/
def finished : World × Side (Except Fault Unit) := side.after 40 start

/-- Where somebody else has the lock. -/
def taken : World :=
  { start with files := start.files.put ["w", ".complytime.lock"] (.text own.text) }

def refused : World × Side (Except Fault Unit) := side.after 40 taken

theorem points : finished.2.succeeds = true ∧ finished.2.log.any (Deed.made site.lockPath) = true ∧
    refused.2.isRunning = false ∧ refused.2.log.any (Deed.made site.lockPath) = false := by
  decide +kernel

theorem finished_leads : ∃ result, Program.Leads (Recorded (Sparing site.lockPath)) side.program
    (start, []) (.done (.ok result)) (finished.1, finished.2.log) := by
  obtain ⟨succeeds, _⟩ := points
  obtain ⟨result, ended⟩ := Side.succeeds_iff.mp succeeds
  refine ⟨result, ?_⟩
  rw [← ended]
  exact Side.leads_after (Sparing.answers _) Interrupted.start_timely rfl

theorem refused_leads : ∃ result, Program.Leads (Recorded (Sparing site.lockPath)) side.program
    (taken, []) (.done result) (refused.1, refused.2.log) := by
  obtain ⟨_, _, stopped, _⟩ := points
  cases ended : refused.2.program with
  | done result =>
      refine ⟨result, ?_⟩
      rw [← ended]
      exact Side.leads_after (Sparing.answers _) Interrupted.start_timely rfl
  | act action next =>
      rw [Side.isRunning, ended] at stopped
      cases stopped

theorem lock_given_back_alone :
    (∃ result, Program.Leads (Recorded (Sparing site.lockPath)) side.program (start, [])
      (.done (.ok result)) (finished.1, finished.2.log)) ∧
    finished.2.log.any (Deed.made site.lockPath) = true ∧ site.Unheld finished.1 ∧
    (∃ result, Program.Leads (Recorded (Sparing site.lockPath)) side.program (taken, [])
      (.done result) (refused.1, refused.2.log)) ∧
    site.Held own taken ∧ World.Retains site.lockPath taken refused.1 := by
  obtain ⟨_, made, _, unmade⟩ := points
  obtain ⟨done, first⟩ := finished_leads
  obtain ⟨result, second⟩ := refused_leads
  have there : taken.files.look taken.here site.lockPath = .ok (.text own.text) := by decide +kernel
  have held : site.Held own taken := .of_datable (Lock.make_datable Interrupted.start_timely) there
  refine ⟨⟨done, first⟩, made, ?_, ⟨result, second⟩, held, ?_⟩
  · exact ((lock_given_back launch invocation start).1 _ _ _ first).1 made |>.1
  · exact ((lock_given_back launch invocation taken).1 _ _ _ second).2 unmade

end Alone
end AssessmentPlans
