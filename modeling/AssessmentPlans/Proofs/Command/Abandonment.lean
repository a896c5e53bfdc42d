import AssessmentPlans.Proofs.Command.Phases
import AssessmentPlans.Proofs.Command.Success
import AssessmentPlans.Proofs.Workspace.Standing

/-! Locks that are left behind. A run may be stopped for good between any two of its actions.
The lock that it leaves then expires, and a later run takes it over. Only a lock file that has
been made but not been written is no lock that could expire, and is in the way from then on. -/
namespace AssessmentPlans

open Job

namespace Calm

variable {R : Knowledge} {w x : World} {action : Action} {answer : action.Answer}

theorem timely (h : Calm R w action answer x) : x.time.Timely := by
  obtain ⟨v, _, timely, run, _⟩ := h
  have same := v.perform_time action
  rw [run] at same
  rw [same]
  exact timely

end Calm

namespace Workspace

variable {w : Workspace} {start x y : World} {l : Lock} {R : Knowledge} {launch : Launch}
  {holder id : String} {α : Type} {job : Job α} {s : World × List Deed}

/-- There is no lock file, and none comes to light when directories are made. -/
def Free (w : Workspace) (x : World) : Prop :=
  ∀ g t, x.files.Furnished g → g.locate x.here w.lockPath = .ok t → x.files.file? t = none

/-- In a directory that is there, a lock file that is absent remains so. -/
theorem Unheld.free {t : Trail} (absent : w.Unheld x)
    (leads : x.files.locate x.here w.lockPath = .ok t) : w.Free x := by
  intro g t' furnished leads'
  cases leads'.symm.trans (Files.locate_mono furnished.directories leads)
  rw [Files.file?, Option.filter_eq_none_iff]
  intro e there
  have seen : x.files.look x.here w.lockPath = .ok e := Files.look_eq_ok.mpr ⟨t, leads, there⟩
  rw [Unheld, Files.isPresent, seen] at absent
  cases absent

/-- What stands in the lock file's place is a lock that expires before long, if it is a file. -/
structure Spent (w : Workspace) (x : World) : Prop where
  timely : x.time.Timely
  lapses : ∀ e, x.files.look x.here w.lockPath = .ok e → e = .directory ∨
    ∃ s l, e = .text s ∧ Lock.ofText s = .ok l ∧ l.expires ≤ x.time.addSeconds Lock.lifetime

theorem Spent.passes (h : w.Spent x) (passed : x.Passes y) (timely : y.time.Timely) : w.Spent y := by
  refine ⟨timely, fun e seen => ?_⟩
  rw [passed.files, passed.here] at seen
  refine (h.lapses e seen).imp_right ?_
  rintro ⟨s, l, text, read, due⟩
  have later := Instant.addSeconds_le_addSeconds h.timely.now.second timely.now.second passed.time
    Lock.lifetime
  exact ⟨s, l, text, read, le_trans due later⟩

theorem Spent.of_unheld (absent : w.Unheld x) (timely : x.time.Timely) : w.Spent x := by
  refine ⟨timely, fun e seen => ?_⟩
  rw [Unheld, Files.isPresent, seen] at absent
  cases absent

theorem Spent.of_held (here : w.Held l x) (timely : x.time.Timely)
    (due : l.expires ≤ x.time.addSeconds Lock.lifetime) : w.Spent x := by
  obtain ⟨s, seen, read⟩ := here
  refine ⟨timely, fun e seen' => .inr ⟨s, l, ?_, read, due⟩⟩
  cases seen.symm.trans seen'
  rfl

/-- The lock file is absent, or that of a lock which has expired. -/
def Open (w : Workspace) (x : World) : Prop :=
  w.Free x ∨ ∃ held, w.Held held x ∧ held.IsExpired x.time

theorem Free.furnished (h : w.Free x) (more : x.files.Furnished y.files) (here : y.here = x.here) :
    w.Free y := by
  intro g t furnished leads
  rw [here] at leads
  rw [more.files]
  exact h g t (more.trans furnished) leads

theorem Held.furnished (h : w.Held l x) (more : x.files.Furnished y.files) (here : y.here = x.here) :
    w.Held l y := by
  obtain ⟨s, seen, read⟩ := h
  refine ⟨s, ?_, read⟩
  rw [World.Sees, here]
  exact more.look seen

/-- No lock is in the way yet, and none has been taken. -/
structure Ready (w : Workspace) (x : World) : Prop where
  vacant : w.Open x
  timely : x.time.Timely

theorem Ready.step {action : Action} {answer : action.Answer} (h : w.Ready x)
    (done : Calm R x action answer y) (harmless : action.Harmless) : w.Ready y := by
  have more := done.leaves.furnished harmless
  refine ⟨h.vacant.imp (·.furnished more done.here) ?_, done.timely⟩
  rintro ⟨held, there, expired⟩
  exact ⟨held, there.furnished more done.here, expired.mono done.time⟩

theorem Ready.spent (h : w.Ready x) : w.Spent x := by
  rcases h.vacant with free | ⟨held, there, expired⟩
  · refine ⟨h.timely, fun e there => .inl ?_⟩
    obtain ⟨t, leads, entry⟩ := Files.look_eq_ok.mp there
    have none := free _ t (.refl _) leads
    rw [Files.file?, entry, Option.filter_eq_none_iff] at none
    simpa using none e rfl
  · refine .of_held there h.timely (le_trans (le_of_lt expired) ?_)
    exact Instant.le_addSeconds h.timely.now.second _

/-- The lock file is that of the run itself. -/
structure Kept (w : Workspace) (l : Lock) (x : World) : Prop where
  sees : x.Sees w.lockPath l.text
  timely : x.time.Timely
  due : l.expires ≤ x.time.addSeconds Lock.lifetime

theorem Kept.spent (h : w.Kept l x) (datable : l.Datable) : w.Spent x :=
  .of_held (.of_datable datable h.sees) h.timely h.due

theorem Kept.passes (h : w.Kept l x) (passed : x.Passes y) (timely : y.time.Timely) : w.Kept l y where
  sees := passed.sees h.sees
  timely := timely
  due := le_trans h.due
    (Instant.addSeconds_le_addSeconds h.timely.now.second timely.now.second passed.time _)

theorem Kept.step {action : Action} {answer : action.Answer} (h : w.Kept l x)
    (done : Calm R x action answer y) (saves : w.Saves action) : w.Kept l y where
  sees := done.keeps saves.keeps_lock (fun _ _ passed => passed.sees) h.sees
  timely := done.timely
  due := le_trans h.due
    (Instant.addSeconds_le_addSeconds h.timely.now.second done.timely.now.second done.time _)

/-! The points of a run at which it may be stopped. -/

/-- Whatever lock there is expires before long, unless the lock file has just been made. -/
def Passable (w : Workspace) (s : World × List Deed) : Prop :=
  w.Spent s.1 ∨ s.2.head?.any (Deed.made w.lockPath) = true

theorem ready_always (within : Within Action.Harmless job) (h : w.Ready s.1) :
    job.Always (Recorded (Calm R)) w.Passable (fun _ t => w.Ready t.1 ∧ s.1.time ≤ t.1.time)
      (fun _ t => w.Spent t.1) s := by
  have kept : job.Always (Recorded (Calm R)) (fun t => w.Ready t.1 ∧ s.1.time ≤ t.1.time) _ _ s :=
    within.always (fun _ _ _ _ harmless done h =>
      ⟨h.1.step done.1 harmless, le_trans h.2 done.1.time⟩) ⟨h, le_refl _⟩
  exact kept.mono (fun _ h => .inl h.1.spent) (fun _ _ h => h) fun _ _ h => h.1.spent

theorem spent_always (within : Within Action.Passive job) (h : w.Spent s.1) :
    job.Always (Recorded (Calm R)) w.Passable (fun _ t => w.Spent t.1) (fun _ t => w.Spent t.1) s := by
  have kept : job.Always (Recorded (Calm R)) (fun t => w.Spent t.1) _ _ s :=
    within.always (fun _ _ _ _ passive done h => h.passes (done.1.passes passive) done.1.timely) h
  exact kept.mono (fun _ => .inl) (fun _ _ h => h) fun _ _ h => h

/-- A lock file that has just been made is written next, and is then that of the lock. -/
theorem fillLock_passable (datable : l.Datable) (made : s.1.Sees w.lockPath "")
    (last : s.2.head?.any (Deed.made w.lockPath) = true)
    (due : l.expires ≤ s.1.time.addSeconds Lock.lifetime) (timely : s.1.time.Timely) :
    Job.Always (Recorded (Calm R)) w.Passable (do
        (← Job.perform (.write w.lockPath l.text)) |> Job.orFail (lockFault "write")
        (← Job.perform (.sync w.lockPath)) |> Job.orFail (lockFault "sync"))
      (fun _ t => w.Kept l t.1) (fun _ t => w.Spent t.1) s := by
  refine Always.perform_bind (.inr last) fun answer t written => ?_
  cases written.1.write_succeeds made
  have later := Instant.addSeconds_le_addSeconds timely.now.second written.1.timely.now.second
    written.1.time Lock.lifetime
  have kept : w.Kept l t.1 := ⟨written.1.write, written.1.timely, le_trans due later⟩
  refine Always.perform_bind (.inl (kept.spent datable)) fun answer t synced => ?_
  have kept := kept.passes synced.1.synced.2 synced.1.timely
  exact Always.orFail (fun _ _ => kept) fun _ _ => kept.spent datable

/-- A lock that is taken expires when its lifetime is over, and there is no other lock meanwhile. -/
theorem take_passable (h : w.Ready s.1) :
    (w.take launch holder).Always (Recorded (Calm R)) w.Passable
      (fun lock t => lock.Datable ∧ w.Kept lock t.1) (fun _ t => w.Spent t.1) s := by
  refine Always.bind _ (ready_always (nameHolder_within.mono fun _ => .inl) h) fun holder s h => ?_
  refine Always.perform_bind (.inl h.1.spent) fun now t read => ?_
  have ready := h.1.step read.1 (.inl trivial)
  obtain ⟨shown, timely⟩ := read.1.now
  refine Always.perform_bind (.inl ready.spent) fun id u given => ?_
  have since : now ≤ u.1.time := shown ▸ given.1.time
  have ready := ready.step given.1 (.inl trivial)
  have datable : (Lock.make id holder now).Datable := Lock.make_datable timely
  refine Always.bind (fun _ t => w.Kept (Lock.make id holder now) t.1) ?_ fun _ t kept =>
    Always.pure ⟨datable, kept⟩
  refine Always.bind _ (ready_always prepare_within ready) ?_
  rintro _ v ⟨ready, later⟩
  refine Always.perform_bind (.inl ready.spent) fun answer z made => ?_
  refine Always.orFail_bind (fun _ ok => ?_) fun e failed => ?_
  · cases ok
    have since := le_trans (le_trans since later) made.1.time
    refine fillLock_passable datable made.1.created ?_ ?_ made.1.timely
    · rw [made.2]
      exact decide_eq_true rfl
    · exact Instant.addSeconds_le_addSeconds timely.now.second made.1.timely.now.second since _
  · cases failed
    exact ready.spent.passes made.1.create_failed made.1.timely

theorem acquire_passable (h : w.Ready s.1) :
    (w.acquire launch holder).Always (Recorded (Calm R)) w.Passable
      (fun lock t => lock.Datable ∧ w.Kept lock t.1) (fun _ t => w.Spent t.1) s := by
  rw [acquire_eq]
  refine Always.bind _ (ready_always (lock?_within.mono fun _ => .inl) h) fun found s h => ?_
  cases found with
  | none => exact take_passable h.1
  | some held =>
      refine Always.perform_bind (.inl h.1.spent) fun now t read => ?_
      have ready := h.1.step read.1 (.inl trivial)
      split
      · exact take_passable ready
      · exact Always.throw ready.spent

theorem release_passable (h : w.Spent s.1) :
    (w.release id).Always (Recorded (Calm R)) w.Passable (fun _ t => w.Spent t.1)
      (fun _ t => w.Spent t.1) s := by
  refine Always.bind _ (spent_always lock?_within h) fun found s h => ?_
  cases found with
  | none => exact Always.pure h
  | some held =>
      dsimp only
      split
      · refine Always.perform_bind (.inl h) fun present t looked => ?_
        have h := h.passes (looked.1.passes trivial) looked.1.timely
        split
        · refine Always.perform_bind (.inl h) fun answer u removed => ?_
          refine Always.orFail (fun _ ok => ?_) fun e failed => ?_
          · cases ok
            exact .of_unheld removed.1.removed removed.1.timely
          · cases failed
            exact h.passes removed.1.remove_failed removed.1.timely
        · exact Always.pure h
      · exact Always.pure h

/-- What is done under the lock does not keep it from expiring. -/
theorem locked_passable (within : Within w.Saves job) (h : w.Ready s.1) :
    (w.locked launch job).Always (Recorded (Calm R)) w.Passable (fun _ t => w.Spent t.1)
      (fun _ t => w.Spent t.1) s := by
  refine Always.bind _ (acquire_passable h) ?_
  rintro lock t ⟨datable, kept⟩
  have during : job.Always (Recorded (Calm R)) (fun t => w.Kept lock t.1) (fun _ t => w.Kept lock t.1)
      (fun _ t => w.Kept lock t.1) t :=
    within.always (fun _ _ _ _ saves done kept => kept.step done.1 saves) kept
  refine Always.bind (fun _ t => w.Kept lock t.1) ?_ fun result u kept => ?_
  · refine during.attempt.mono (fun _ kept => .inl (kept.spent datable)) (fun result t kept => ?_)
      fun _ _ => False.elim
    cases result with
    | ok a => exact kept
    | error fault => exact kept
  · refine Always.bind _ (release_passable (kept.spent datable)) fun _ t h => ?_
    cases result with
    | ok a => exact Always.pure h
    | error fault => exact Always.throw h

theorem passable_phases :
    w.Phases (Recorded (Calm R)) w.Passable (fun s => w.Ready s.1) fun s => w.Spent s.1 where
  harmless _ _ _ _ harmless done ready := ready.step done.1 harmless
  passive _ _ _ _ passive done spent := spent.passes (done.1.passes passive) done.1.timely
  early _ ready := .inl ready.spent
  late _ := .inl
  locked _ _ _ within ready :=
    (locked_passable within ready).mono (fun _ h => h) (fun _ _ h => h) fun _ _ => .inr

/-- A lock that has been left behind, and has had its time, is no obstacle. -/
theorem Spent.vacant {w' : Workspace} {now : Instant} (h : w.Spent x)
    (clear : x.files.look x.here w.lockPath ≠ .ok .directory)
    (left : y.files.look y.here w'.lockPath = x.files.look x.here w.lockPath)
    (later : x.time.addSeconds Lock.lifetime < now) : w'.Vacant y now := by
  cases there : x.files.look x.here w.lockPath with
  | error e =>
      refine .inl ?_
      rw [Unheld, Files.isPresent, left, there]
  | ok e =>
      rcases h.lapses e there with rfl | ⟨s, l, rfl, read, due⟩
      · exact absurd there clear
      · exact .inr ⟨l, ⟨s, left.trans there, read⟩, lt_of_le_of_lt due later⟩

/-- An empty lock file is not read as a lock, so it does not expire. -/
theorem acquire_fails_of_empty {r : Except Fault Lock} (seen : x.Sees w.lockPath "")
    (call : (w.acquire launch holder).Ends (Calm R) x r y) :
    (∃ fault, r = .error fault) ∧ y.files = x.files := by
  have taken : ∀ now, ¬w.Vacant x now := by
    have unread : (Lock.ofText "").toOption = none := by decide
    rintro now (absent | ⟨held, ⟨s, seen', read⟩, _⟩)
    · rw [Unheld, seen.isPresent] at absent
      cases absent
    · cases seen.symm.trans seen'
      rw [read] at unread
      cases unread
  cases r with
  | ok lock =>
      obtain ⟨_, now, _, _, vacant⟩ := acquire_always.ends_ok call
      exact absurd vacant (taken now)
  | error fault =>
      obtain ⟨now, _, _, ⟨vacant, _⟩ | ⟨_, passed⟩⟩ := acquire_always.ends_error call
      · exact absurd vacant (taken now)
      · exact ⟨⟨fault, rfl⟩, passed.files⟩

end Workspace

theorem Invocation.passable {launch : Launch} {R : Knowledge} {s : World × List Deed} (i : Invocation)
    (h : i.workspaceOf.Ready s.1) :
    (i.run launch).Always (Recorded (Calm R)) i.workspaceOf.Passable
      (fun _ t => i.workspaceOf.Spent t.1) (fun _ t => i.workspaceOf.Spent t.1) s := by
  refine (i.phases Workspace.passable_phases h).mono (fun _ h => h) ?_ ?_
  · exact fun _ _ ended => ended.elim Workspace.Ready.spent id
  · exact fun _ _ ended => ended.elim Workspace.Ready.spent id

/-- A run of a command finds no lock file, or an expired lock, and is stopped for good somewhere. If
the last thing that it did was not to make the lock file, the lock can be taken again once the
lifetime of a lock has passed, by anybody who finds what was left in the lock file's place; only the
failure of an action prevents it. That place is not to be one of the directories that runs make. -/
theorem abandoned_lock_lapses {launch launch' : Launch} {i : Invocation} {start x y z : World}
    {part : Program (Except Fault Unit)} {log : List Deed} {w : Workspace} {holder : String}
    {R : Knowledge} {r : Except Fault Lock} (timely : start.time.Timely)
    (vacant : i.workspaceOf.Open start)
    (stopped : Program.Leads (Recorded (Calm .nothing)) (ExceptT.run (i.run launch)) (start, []) part
      (x, log))
    (written : log.head?.any (Deed.made i.workspaceOf.lockPath) = false)
    (clear : x.files.look x.here i.workspaceOf.lockPath ≠ .ok .directory)
    (left : y.files.look y.here w.lockPath = x.files.look x.here i.workspaceOf.lockPath)
    (later : x.time.addSeconds Lock.lifetime < y.time) (sure : R.Sure)
    (call : (w.acquire launch' holder).Ends (Calm R) y r z) : ∃ lock, r = .ok lock ∧ w.Held lock z := by
  have spent : i.workspaceOf.Spent x := by
    have passable : (i.run launch).Always (Recorded (Calm .nothing)) i.workspaceOf.Passable
        (fun _ t => i.workspaceOf.Spent t.1) (fun _ t => i.workspaceOf.Spent t.1) (start, []) :=
      i.passable ⟨vacant, timely⟩
    rcases Program.Always.point passable stopped with (spent | made) | ⟨result, _, ended⟩
    · exact spent
    · rw [written] at made
      cases made
    · cases result with
      | ok _ => exact ended
      | error _ => exact ended
  cases r with
  | ok lock =>
      obtain ⟨here, _⟩ := Workspace.acquire_always.ends_ok call
      exact ⟨lock, rfl, here⟩
  | error fault =>
      obtain ⟨now, since, _, ⟨_, failed⟩ | ⟨taken, _⟩⟩ := Workspace.acquire_always.ends_error call
      · exact absurd sure failed
      · exact absurd (spent.vacant clear left (lt_of_lt_of_le later since)) taken

/-- What a program has come to after so many actions. -/
def Side.after {α : Type} : Nat → World → Side α → World × Side α
  | 0, w, s => (w, s)
  | n + 1, w, s =>
    let (w, s) := s.step w
    s.after n w

/-- Surroundings in which the world may answer as it is. -/
theorem Side.leads_after {α : Type} {env : Surroundings World} {n : Nat} {w : World} {s : Side α}
    {point : World × Side α}
    (answers : ∀ (w : World) (action : Action), w.time.Timely →
      env w action (w.perform action).1 (w.perform action).2)
    (timely : w.time.Timely) (reached : s.after n w = point) :
    Program.Leads (Recorded env) s.program (w, s.log) point.2.program (point.1, point.2.log) := by
  induction n generalizing w s with
  | zero =>
      cases reached
      exact .here _ _
  | succ n ih =>
      rw [Side.after] at reached
      cases left : s.program with
      | done a =>
          rw [Side.step_done left] at reached
          rw [← left]
          exact ih timely reached
      | act action next =>
          have later : (w.perform action).2.time.Timely := by
            rw [World.perform_time]
            exact timely
          have answered : Recorded env (w, s.log) action (w.perform action).1
              ((w.perform action).2, ⟨action, (w.perform action).1⟩ :: s.log) :=
            ⟨answers w action timely, rfl⟩
          rw [Side.step_act left] at reached
          exact .step answered (ih later reached)

theorem Calm.answers (w : World) (action : Action) (timely : w.time.Timely) :
    Calm .nothing w action (w.perform action).1 (w.perform action).2 :=
  ⟨w, .refl w, timely, rfl, trivial⟩

/-- A plan without selections, last changed at the time of the sample world. -/
def settledPlan : Plan where
  uuid := "00000000-0000-4000-8000-000000000000"
  metadata := ⟨"t", World.bare.time.stamp, "", "", []⟩
  systemPlan := ⟨"", []⟩
  definitions := none
  reviewed := ⟨none, none, [], []⟩
  others := []

/-! A run that tailors a plan, and is stopped for good on the way. -/
namespace Interrupted

open Sample (launch invocation site own)

def side : Side (Except Fault Unit) := .start (ExceptT.run (invocation.run launch))

/-- Where there is no lock. -/
def start : World := Sample.start settledPlan

theorem start_timely : start.time.Timely := by
  constructor <;> constructor <;> decide

theorem start_open : site.Open start := by
  have absent : site.Unheld start := rfl
  have leads : start.files.locate start.here site.lockPath = .ok ["w", ".complytime.lock"] := by
    decide +kernel
  exact .inl (Workspace.Unheld.free absent leads)

/-- The run has made its lock file. -/
def torn : World × Side (Except Fault Unit) := side.after 10 start

/-- It has written its lock. -/
def stopped : World × Side (Except Fault Unit) := torn.2.after 1 torn.1

/-- Nothing else of the workspace is there when somebody comes back. -/
def returned : World := { World.bare with
  files := ⟨[(["w"], .directory), (["w", ".complytime.lock"], .text own.text)]⟩
  time := start.time.addSeconds (Lock.lifetime + 1) }

theorem points : torn.1.files.look torn.1.here site.lockPath = .ok (.text "") ∧
    torn.1.time = start.time ∧ stopped.2.log.head?.any (Deed.made site.lockPath) = false ∧
    stopped.1.files.look stopped.1.here site.lockPath = .ok (.text own.text) ∧
    stopped.1.time = start.time := by
  decide +kernel

theorem torn_leads : Program.Leads (Recorded (Calm .nothing)) side.program (start, []) torn.2.program
    (torn.1, torn.2.log) :=
  Side.leads_after Calm.answers start_timely rfl

theorem stopped_leads : Program.Leads (Recorded (Calm .nothing)) side.program (start, [])
    stopped.2.program (stopped.1, stopped.2.log) := by
  refine torn_leads.trans (Side.leads_after Calm.answers ?_ rfl)
  rw [points.2.1]
  exact start_timely

theorem abandoned_lock_lapses_interrupted : start.time.Timely ∧ site.Open start ∧
    Program.Leads (Recorded (Calm .nothing)) side.program (start, []) stopped.2.program
      (stopped.1, stopped.2.log) ∧
    stopped.2.log.head?.any (Deed.made site.lockPath) = false ∧
    returned.files.look returned.here site.lockPath = stopped.1.files.look stopped.1.here site.lockPath ∧
    stopped.1.time.addSeconds Lock.lifetime < returned.time ∧
    ∃ lock, (returned.run (site.acquire launch "later")).1 = .ok lock ∧
      site.Held lock (returned.run (site.acquire launch "later")).2 := by
  obtain ⟨_, _, written, there, time⟩ := points
  have clear : stopped.1.files.look stopped.1.here site.lockPath ≠ .ok .directory := by
    rw [there]
    exact nofun
  have left : returned.files.look returned.here site.lockPath =
      stopped.1.files.look stopped.1.here site.lockPath := by
    rw [there]
    decide +kernel
  have later : stopped.1.time.addSeconds Lock.lifetime < returned.time := by
    rw [time]
    decide
  have timely : returned.time.Timely := by
    constructor <;> constructor <;> decide
  have along : Program.Along .success returned (ExceptT.run (site.acquire launch "later")) := by
    decide +kernel
  exact ⟨start_timely, start_open, stopped_leads, written, left, later,
    abandoned_lock_lapses start_timely start_open stopped_leads written clear left later
      (fun _ _ h => h) (Job.Ends.of_along timely along)⟩

/-- A run that is stopped when it has made its lock file, and has not written it, leaves the
workspace locked for good: nobody can take the lock, however much later. -/
theorem empty_lock_stays : start.time.Timely ∧ site.Open start ∧
    Program.Leads (Recorded (Calm .nothing)) side.program (start, []) torn.2.program
      (torn.1, torn.2.log) ∧
    World.Sees site.lockPath "" torn.1 ∧
    ∀ y launch holder, torn.1.Passes y → y.time.Timely →
      torn.1.time.addSeconds Lock.lifetime < y.time →
        ∃ fault, (y.run (site.acquire launch holder)).1 = .error fault := by
  obtain ⟨empty, _⟩ := points
  refine ⟨start_timely, start_open, torn_leads, empty, ?_⟩
  intro y launch holder passed timely _
  have call := Job.Ends.of_along timely (Program.along_nothing (site.acquire launch holder) y)
  exact (Workspace.acquire_fails_of_empty (passed.sees empty) call).1

end Interrupted
end AssessmentPlans
