import AssessmentPlans.Proofs.Command.Planned
import AssessmentPlans.Proofs.Workspace.Standing

/-! The commands that succeed where a readable and valid plan stands: checking it always does,
and tailoring it does if the configuration is accepted, nobody holds the lock and no action
fails, however long it takes. -/
namespace AssessmentPlans

open Job

/-- However long it takes, the job succeeds, unless an action fails. -/
def Job.Succeeds {α : Type} (job : Job α) (post : α → World → Prop) (x : World) : Prop :=
  job.Always (Calm .success) (fun _ => True) post (fun _ _ => False) x

section Jobs

variable {α β : Type} {job : Job α} {R : Knowledge} {w : Workspace} {launch : Launch}
  {format : OutputFormat} {file : Option Path} {x y : World} {l : Lock} {p : Plan} {s : String}

theorem Knowledge.success_sure : Knowledge.success.Sure := fun _ _ => id

namespace Job.Succeeds

variable {post post' : α → World → Prop}

theorem bind {f : α → Job β} {post : β → World → Prop} (mid : α → World → Prop)
    (first : job.Succeeds mid x) (next : ∀ a y, mid a y → (f a).Succeeds post y) :
    (job >>= f).Succeeds post x :=
  Always.bind mid first next

theorem mono (h : job.Succeeds post x) (after : ∀ a y, post a y → post' a y) : job.Succeeds post' x :=
  Always.mono h (fun _ h => h) after fun _ _ => id

/-- What is known to fail only with one of its actions succeeds. -/
theorem of_sure {inv : World → Prop} {fail : Fault → World → Prop}
    (h : job.Always (Calm .success) inv post fail x)
    (known : ∀ fault y, fail fault y → ¬Knowledge.success.Sure) : job.Succeeds post x :=
  h.mono (fun _ _ => trivial) (fun _ _ h => h) fun fault y failed =>
    known fault y failed Knowledge.success_sure

/-- What succeeds keeps what each of its actions keeps. -/
theorem keeping {P : World → Prop} (h : job.Succeeds post x)
    (kept : job.Always (Calm .success) P (fun _ => P) (fun _ => P) x) :
    job.Succeeds (fun a y => P y ∧ post a y) x :=
  (kept.and h).mono (fun _ _ => trivial) (fun _ _ h => h) fun _ _ h => h.2

/-- If no action fails in the world as it is, then the run there has come to its end. -/
theorem run (h : job.Succeeds post x) (timely : x.time.Timely) (along : Along .success x job) :
    ∃ a, (x.run job).1 = .ok a ∧ post a (x.run job).2 := by
  have ended := Job.Ends.of_along timely along
  cases result : (x.run job).1 with
  | ok a =>
      rw [result] at ended
      exact ⟨a, rfl, Always.ends_ok h ended⟩
  | error fault =>
      rw [result] at ended
      exact (Always.ends_error h ended).elim

end Job.Succeeds

/-! What is read and what is told. -/

theorem warnings_succeed (lines : List String) (passed : x.Passes y) :
    (lines.forM warn).Succeeds (fun _ => x.Passes) y := by
  induction lines generalizing y with
  | nil => exact Always.pure passed
  | cons line lines ih =>
      refine Always.perform_bind trivial fun answer z warned => ?_
      exact ih (passed.trans (warned.passes trivial))

theorem report_succeeds {text line : String} :
    (emit text >>= fun _ => Job.tell line).Succeeds (fun _ => x.Passes) x := by
  refine Always.perform_bind trivial fun answer y printed => ?_
  have passed := printed.passes trivial
  cases printed.known
  exact Always.perform trivial fun _ _ told => passed.trans (told.passes trivial)

theorem loadValid_succeeds {c : ScopeConfig} {launch' : Launch} {warnings : List String}
    {expected : Option String}
    (loaded : (x.run (ScopeConfig.load launch w.root file)).1 = .ok (c, launch'))
    (accepted : c.validate expected = .ok warnings) :
    (loadValid launch w.root file expected).Succeeds (fun config y => config = (c, launch') ∧ x.Passes y)
      x := by
  refine .bind _ (ScopeConfig.load_timeless.passing_run loaded) ?_
  rintro _ y ⟨rfl, passed⟩
  dsimp only
  rw [accepted]
  exact .bind _ (warnings_succeed warnings passed) fun _ z passed => Always.pure ⟨rfl, passed⟩

/-- Checking a plan that can be read and is valid has no faults to tell. -/
theorem run_validate {warnings : Bool} (seen : x.Sees w.planPath s) (read : Plan.ofText s = .ok p)
    (valid : p.Valid) : (x.run (runValidate launch format w warnings)).1 = .ok () := by
  unfold runValidate
  rw [World.run_bind_of_ok (Workspace.run_plan seen read)]
  dsimp only
  rw [Plan.issues_errors_eq_nil.mpr valid]
  rfl

/-! What is done under the lock. -/

namespace Workspace

/-- A lock that is there can be read and has expired. -/
def Unlocked (w : Workspace) (x : World) : Prop :=
  ∀ s, x.Sees w.lockPath s → ∃ held, Lock.ofText s = .ok held ∧ held.IsExpired x.time

theorem Unlocked.passes (h : w.Unlocked x) (passed : x.Passes y) : w.Unlocked y := by
  intro s seen
  obtain ⟨held, read, expired⟩ := h s (passed.stays.symm.sees seen)
  exact ⟨held, read, expired.mono passed.time⟩

theorem lock?_succeeds (free : w.Unlocked x) :
    w.lock?.Succeeds (fun found y => x.Passes y ∧ ∀ held, found = some held → held.IsExpired x.time)
      x := by
  unfold lock?
  refine Always.perform_bind trivial fun present y looked => ?_
  have passed := looked.passes trivial
  split
  · exact Always.pure ⟨passed, nofun⟩
  · refine Always.perform_bind trivial fun answer z read => ?_
    obtain ⟨s, ok⟩ := read.known
    obtain ⟨held, parsed, expired⟩ :=
      free s (passed.stays.symm.sees (World.Sees.of_readText (read.readText.symm.trans ok)))
    cases ok
    refine Always.orFail_bind ?_ nofun
    rintro _ ⟨⟩
    rw [parsed]
    refine Always.pure ⟨passed.trans (read.passes trivial), ?_⟩
    rintro _ ⟨⟩
    exact expired

theorem take_succeeds {holder : String} : (w.take launch holder).Succeeds (fun lock => w.Held lock) x := by
  have taken : (w.take launch holder).Succeeds _ x :=
    .of_sure (take_always (le_refl _)) fun _ _ failed => failed.2
  exact taken.mono fun _ _ h => h.2

/-- The lock of a workspace that is not locked is taken. -/
theorem acquire_succeeds {holder : String} (free : w.Unlocked x) :
    (w.acquire launch holder).Succeeds (fun lock => w.Held lock) x := by
  rw [acquire_eq]
  refine .bind _ (lock?_succeeds free) ?_
  rintro found y ⟨passed, expired⟩
  cases found with
  | none => exact take_succeeds
  | some held =>
      refine Always.perform_bind trivial fun now z read => ?_
      have later : x.time ≤ now := read.now.1 ▸ le_trans passed.time read.time
      rw [if_pos ((expired held rfl).mono later)]
      exact take_succeeds

theorem release_succeeds (held : w.Held l x) : (w.release l.id).Succeeds (fun _ _ => True) x := by
  refine .bind _ (lock?_always.mono (fun _ h => h) (fun _ _ h => h) fun _ _ h => h.2.2 l held) ?_
  rintro found y ⟨_, ⟨rfl, absent⟩ | ⟨l', rfl, here⟩⟩
  · exact absurd absent held.not_unheld
  · cases held.unique here
    dsimp only
    rw [if_pos rfl]
    refine Always.perform_bind trivial fun present z looked => ?_
    split
    · refine Always.perform_bind trivial fun answer u removed => ?_
      cases removed.known
      exact Always.pure trivial
    · exact Always.pure trivial

/-- Saving a plan puts it in place, or fails with one of its actions. -/
theorem save_always (later : x.time ≤ y.time) : (w.save p).Always (Calm R) (fun _ => True)
    (fun _ z => x.time ≤ z.time ∧ z.Sees w.planPath p.text) (fun _ _ => ¬R.Sure) y := by
  refine Always.bind _ ((prepare_always later).mono (fun _ h => h) (fun _ _ h => h) fun _ _ h => h.2)
    fun _ y later => ?_
  refine Always.perform_bind trivial fun answer y created => ?_
  have later := le_trans later created.time
  have known := Calm.unsure fun sure => sure _ _ created.known
  refine Always.orFail_bind (fun _ _ => ?_) fun e failed => known e failed
  refine Always.perform_bind trivial fun answer y written => ?_
  have later := le_trans later written.time
  have known := Calm.unsure fun sure => sure _ _ written.known
  refine Always.orFail_bind (fun _ ok => ?_) fun e failed => known e failed
  cases ok
  refine Always.perform_bind trivial fun answer z synced => ?_
  obtain ⟨rfl, passed⟩ := synced.synced
  have later := le_trans later passed.time
  refine Always.perform_bind trivial fun answer u renamed => ?_
  have known := Calm.unsure fun sure => sure _ _ renamed.known
  refine Always.orFail (fun _ ok => ?_) fun e failed => known e failed
  cases ok
  exact ⟨le_trans later renamed.time, renamed.renamed (passed.sees written.write)⟩

theorem held_kept {action : Action} (kept : ∀ s, action.Keeps (World.Sees w.lockPath s)) :
    action.Keeps (w.Held l) := by
  rintro x ⟨s, seen, read⟩
  exact ⟨s, kept s x seen, read⟩

/-- The lock is no obstacle to what succeeds without it. -/
theorem locked_succeeds {P Q : World → Prop} (steady : w.Steady P) (steady' : w.Steady Q)
    (within : Within w.Saves job) (succeeds : ∀ y, P y → job.Succeeds (fun _ => Q) y)
    (free : w.Unlocked x) (met : P x) : (w.locked launch job).Succeeds (fun _ => Q) x := by
  have acquired : (w.acquire launch "").Succeeds (fun lock y => P y ∧ w.Held lock y) x :=
    (acquire_succeeds free).keeping (acquire_within.calm steady.kept steady.passes met)
  refine .bind _ acquired ?_
  rintro lock y ⟨met, held⟩
  have own : job.Always (Calm .success) (w.Held lock) _ _ y :=
    within.calm (fun _ saves => held_kept fun _ => saves.keeps_lock) (fun _ _ passed h => h.passes passed)
      held
  have done : (Job.attempt job).Succeeds (fun result z => ∃ a, result = .ok a ∧ w.Held lock z ∧ Q z) y := by
    refine Always.mono ((succeeds y met).keeping own).attempt (fun _ h => h) ?_ fun _ _ => id
    intro result z after
    cases result with
    | ok a => exact ⟨a, rfl, after⟩
    | error fault => exact after.elim
  refine .bind _ done ?_
  rintro result z ⟨a, rfl, held, met⟩
  have given := (release_succeeds held).keeping (release_within.calm steady'.kept steady'.passes met)
  exact .bind _ given fun _ _ h => Always.pure h.1

/-- The plan file has what a scope makes of a plan, with a date since that time. -/
def Tailored (w : Workspace) (p : Plan) (scope : IdSet) (since : Instant) (x : World) : Prop :=
  ∃ now, since ≤ now ∧ now ≤ x.time ∧ x.Sees w.planPath ((p.tailor scope).touch now).text

theorem sees_steady : w.Steady (World.Sees w.planPath s) :=
  ⟨fun action locks => locks.keeps_plan action, fun _ _ passed => passed.sees⟩

theorem tailored_steady {scope : IdSet} {since : Instant} : w.Steady (w.Tailored p scope since) := by
  constructor
  · rintro action locks x ⟨now, earlier, later, seen⟩
    rw [← x.perform_time action] at later
    exact ⟨now, earlier, later, locks.keeps_plan action x seen⟩
  · rintro x y passed ⟨now, earlier, later, seen⟩
    exact ⟨now, earlier, le_trans later passed.time, passed.sees seen⟩

end Workspace

theorem tailorSaved_succeeds {scope : Scope} (read : Plan.ofText s = .ok p) (valid : p.Valid)
    (named : scope.controls.Named) (since : x.time ≤ y.time) (seen : y.Sees w.planPath s) :
    (tailorSaved w scope).Succeeds (fun _ => w.Tailored p scope.controls x.time) y := by
  refine .bind _ (plan_timeless.passing_run (congrArg Prod.fst (Workspace.run_plan seen read))) ?_
  rintro q z ⟨same, passed⟩
  cases same
  dsimp only [tailorPlan]
  rw [(valid.tailor named).validate]
  refine .bind _ (warnings_succeed _ passed) fun _ z passed => ?_
  refine Always.perform_bind trivial fun now z read => ?_
  obtain ⟨shown, _⟩ := read.now
  have earlier : x.time ≤ now := shown ▸ le_trans since (le_trans passed.time read.time)
  have saved : (w.save ((p.tailor scope.controls).touch now)).Succeeds _ z :=
    .of_sure (Workspace.save_always (le_refl _)) fun _ _ => id
  refine .bind _ saved ?_
  rintro _ u ⟨later, seen⟩
  exact Always.pure ⟨now, earlier, shown ▸ later, seen⟩

/-- A run that tailors the plan succeeds if nothing stands in its way, and leaves what the
configuration makes of the plan. -/
theorem runTailor_succeeds {c : ScopeConfig} {launch' : Launch} {warnings : List String}
    (loaded : (x.run (ScopeConfig.load launch w.root file)).1 = .ok (c, launch'))
    (accepted : c.validate none = .ok warnings) (free : w.Unlocked x) (seen : x.Sees w.planPath s)
    (read : Plan.ofText s = .ok p) (valid : p.Valid) :
    (runTailor launch format w file).Succeeds (fun _ => w.Tailored p c.scope.controls x.time) x := by
  refine .bind _ (loadValid_succeeds loaded accepted) ?_
  rintro config y ⟨same, passed⟩
  cases same
  have named := ScopeConfig.scope_named accepted
  have since : w.Steady fun y => x.time ≤ y.time ∧ y.Sees w.planPath s := by
    constructor
    · rintro action locks y ⟨later, seen⟩
      exact ⟨le_of_le_of_eq later (y.perform_time action).symm, locks.keeps_plan action y seen⟩
    · rintro y z passed ⟨later, seen⟩
      exact ⟨le_trans later passed.time, passed.sees seen⟩
  have done : (w.locked launch' (tailorSaved w c.scope)).Succeeds _ y :=
    Workspace.locked_succeeds since Workspace.tailored_steady tailorSaved_within
      (fun y met => tailorSaved_succeeds read valid named met.1 met.2)
      (free.passes passed) ⟨passed.time, passed.sees seen⟩
  refine .bind _ done fun report z tailored => ?_
  exact report_succeeds.mono fun _ _ passed => Workspace.tailored_steady.passes _ _ passed tailored

/-! Runs that tailor a plan, known by their parts. -/

theorem loadValid_eq_ok {root : Path} {expected : Option String} {c : ScopeConfig} {launch' : Launch}
    (loads : (x.run (loadValid launch root file expected)).1 = .ok (c, launch')) :
    (x.run (ScopeConfig.load launch root file)).1 = .ok (c, launch') ∧
      ∃ warnings, c.validate expected = .ok warnings := by
  obtain ⟨⟨c', environment⟩, loaded, rest⟩ := World.run_bind_eq_ok.mp loads
  dsimp only at rest
  cases checked : c'.validate expected with
  | error fault =>
      rw [checked] at rest
      cases rest
  | ok warnings =>
      rw [checked] at rest
      obtain ⟨_, _, same⟩ := World.run_bind_eq_ok.mp rest
      cases same
      exact ⟨loaded, warnings, checked⟩

theorem loadValid_sees (launch : Launch) (file : Option Path) (expected : Option String)
    (seen : x.Sees w.planPath s) :
    (x.run (loadValid launch w.root file expected)).2.Sees w.planPath s :=
  loadValid_within.run (fun _ passive => Workspace.sees_steady.kept _ (.harmless (.inl passive))) seen

theorem acquire_sees (launch : Launch) (holder : String) (seen : x.Sees w.planPath s) :
    (x.run (w.acquire launch holder)).2.Sees w.planPath s :=
  Workspace.acquire_within.run Workspace.sees_steady.kept seen

/-- What is done to the plan of a workspace once it has been read. -/
def retailor (w : Workspace) (scope : Scope) (p : Plan) : Job Report := do
  let (plan, account, result) := tailorPlan scope p
  account.warnings.forM Job.warn
  if let .error fault := result then throw (.plan fault)
  w.save (plan.touch (← Job.perform .now))
  return account.report

theorem tailorSaved_eq {scope : Scope} : tailorSaved w scope = w.plan >>= retailor w scope := rfl

/-- What is known of each part is known of the whole run. -/
theorem along_runTailor {launch' : Launch} {c : ScopeConfig} {report : Report} {z u v : World}
    (loading : Along R x (loadValid launch w.root file none))
    (loads : x.run (loadValid launch w.root file none) = (.ok (c, launch'), y))
    (locking : Along R y (w.acquire launch' "")) (locks : y.run (w.acquire launch' "") = (.ok l, z))
    (reading : Along R z w.plan) (reads : z.run w.plan = (.ok p, z))
    (saving : Along R z (retailor w c.scope p)) (saves : z.run (retailor w c.scope p) = (.ok report, u))
    (giving : Along R u (w.release l.id)) (gives : u.run (w.release l.id) = (.ok (), v))
    (telling : ∀ text line, Along R v (emit text >>= fun _ => Job.tell line)) :
    Along R x (runTailor launch format w file) := by
  have tailors : z.run (tailorSaved w c.scope) = (.ok report, u) := by
    rw [tailorSaved_eq, World.run_bind_of_ok reads, saves]
  have attempts : z.run (Job.attempt (tailorSaved w c.scope)) = (.ok (.ok report), u) := by
    rw [World.run_attempt, tailors]
  have tailoring : Along R z (tailorSaved w c.scope) := .bind reading reads saving
  have under : Along R y (w.locked launch' (tailorSaved w c.scope)) :=
    .bind locking locks (.bind tailoring.attempt attempts (.bind giving gives trivial))
  have done : y.run (w.locked launch' (tailorSaved w c.scope)) = (.ok report, v) := by
    unfold Workspace.locked
    rw [World.run_bind_of_ok locks, World.run_bind_of_ok attempts, World.run_bind_of_ok gives]
    rfl
  exact .bind loading loads (.bind under done (telling _ _))

/-- No action fails, and the plan is not read. -/
def Workspace.quiet (w : Workspace) : Knowledge := .and .success (.avoids w.planPath)

instance (w : Workspace) (action : Action) (answer : action.Answer) : Decidable (w.quiet action answer) :=
  inferInstanceAs (Decidable (Knowledge.and _ _ action answer))

/-- The parts of a run that tailors the plan succeed one after the other, and no action fails. The part
that reads the plan is left out. -/
def TailorsInParts (w : Workspace) (launch : Launch) (c : ScopeConfig) (lock : Lock) (p : Plan)
    (x : World) : Prop :=
  let y := (x.run (loadValid launch w.root none none)).2
  let z := (y.run (w.acquire launch "")).2
  let u := (z.run (retailor w c.scope p)).2
  ((x.run (loadValid launch w.root none none)).1.toOption = some (c, launch) ∧
    Along w.quiet x (loadValid launch w.root none none)) ∧
  ((y.run (w.acquire launch "")).1.toOption = some lock ∧ Along w.quiet y (w.acquire launch "")) ∧
  ((z.run (retailor w c.scope p)).1.toOption.isSome ∧ Along w.quiet z (retailor w c.scope p)) ∧
  (u.run (w.release lock.id)).1.toOption = some () ∧ Along w.quiet u (w.release lock.id)

instance (w : Workspace) (launch : Launch) (c : ScopeConfig) (lock : Lock) (p : Plan) (x : World) :
    Decidable (TailorsInParts w launch c lock p x) :=
  inferInstanceAs (Decidable (_ ∧ _))

theorem TailorsInParts.along {c : ScopeConfig} (h : TailorsInParts w launch c l p x)
    (seen : x.Sees w.planPath p.text) (storable : p.Storable)
    (wider : ∀ action answer, w.quiet action answer → R action answer)
    (present : R (.isPresent w.planPath) true) (text : R (.readText w.planPath) (.ok p.text)) :
    Along R x (runTailor launch format w none) := by
  obtain ⟨⟨loads, loading⟩, ⟨locks, locking⟩, ⟨saves, saving⟩, gives, giving⟩ := h
  obtain ⟨report, saves⟩ := Option.isSome_iff_exists.mp saves
  have loads := World.run_of_toOption loads
  have locks := World.run_of_toOption locks
  have saves := World.run_of_toOption saves
  have gives := World.run_of_toOption gives
  have seen := acquire_sees launch "" (loadValid_sees launch none none seen)
  have reading := Workspace.along_plan seen storable.ofText_text present text
  have reads := Workspace.run_plan seen storable.ofText_text
  refine along_runTailor (loading.mono wider) loads (locking.mono wider) locks reading reads
    (saving.mono wider) saves (giving.mono wider) gives fun text line => ?_
  exact ⟨wider _ _ ⟨rfl, nofun⟩, wider _ _ ⟨trivial, nofun⟩, trivial⟩

end Jobs

/-! A run that tailors a plan with activities, and one that does it again. -/
namespace Sample

def launch : Launch := ⟨[], ⟨"/"⟩, "h", 1, false⟩

def invocation : Invocation := ⟨"w", none, false, .text, .tailor none⟩

def site : Workspace := invocation.workspaceOf

def config : ScopeConfig := ⟨"f", ["ac-1"]⟩

/-- A workspace with a plan and a configuration, and nobody at work. -/
def start (p : Plan) : World := { World.bare with
  files := ⟨[(["w"], .directory), (["w", "assessment-plan.json"], .text p.text),
    (["w", "assessment-plan-filter.yml"], .text "frameworkId: f\nincludeControls: [ac-1]")]⟩ }

/-- The lock that the run takes. -/
def own : Lock :=
  .make (World.bare.identifier 1) (Workspace.holderName launch (World.bare.identifier 0)) World.bare.time

/-- What the run makes of the sample plan. -/
def narrowed : Plan := (twoActivities.tailor config.scope.controls).touch World.bare.time

theorem start_sees (p : Plan) : (start p).Sees site.planPath p.text := rfl

theorem start_unlocked (p : Plan) : site.Unlocked (start p) := by
  intro s locked
  have absent : (start p).files.look (start p).here site.lockPath = .error .missing := rfl
  rw [World.Sees, absent] at locked
  cases locked

theorem start_timely (p : Plan) : (start p).time.Timely := by
  show World.bare.time.Timely
  constructor <;> constructor <;> decide

/-- The run leaves what the configuration makes of the plan. -/
theorem tailored {p : Plan} (parts : TailorsInParts site launch config own p (start p))
    (storable : p.Storable) (valid : p.Valid) :
    ((start p).run (invocation.run launch)).1 = .ok () ∧
      ((start p).run (invocation.run launch)).2.Sees site.planPath
        ((p.tailor config.scope.controls).touch World.bare.time).text := by
  have along : Along .success (start p) (invocation.run launch) :=
    parts.along (start_sees p) storable (fun _ _ h => h.1) trivial ⟨_, rfl⟩
  obtain ⟨loaded, warnings, accepted⟩ := loadValid_eq_ok (toOption_eq_some.mp parts.1.1)
  have succeeds : (invocation.run launch).Succeeds _ (start p) :=
    runTailor_succeeds loaded accepted (start_unlocked p) (start_sees p) storable.ofText_text valid
  obtain ⟨_, done, now, since, before, seen⟩ := succeeds.run (start_timely p) along
  rw [World.run_time] at before
  cases le_antisymm since before
  exact ⟨done, seen⟩

theorem twoActivities_valid : twoActivities.Valid := Plan.issues_errors_eq_nil.mp (by decide +kernel)

theorem narrowed_valid : narrowed.Valid := by
  have accepted : config.validate none = .ok [] := by decide +kernel
  exact (twoActivities_valid.tailor (ScopeConfig.scope_named accepted)).touch _

theorem twoActivities_inParts : TailorsInParts site launch config own twoActivities (start twoActivities) := by
  decide +kernel

theorem narrowed_inParts : TailorsInParts site launch config own narrowed (start narrowed) := by
  decide +kernel

end Sample
end AssessmentPlans
