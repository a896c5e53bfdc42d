import AssessmentPlans.Proofs.Disturbance
import AssessmentPlans.Proofs.Workspace.Exclusion

/-! Jobs under a lock that lasts. Up to a deadline no lock expires, so whoever finds a lock
file gives up; and from the moment its lock file is made, a job that takes the lock keeps
others out until it ends. -/
namespace AssessmentPlans

open Job

def Action.Looks : Action → Prop
  | .isPresent _ | .readText _ | .now => True
  | _ => False

theorem Action.Looks.passive {action : Action} (h : action.Looks) : action.Passive := by
  cases action with
  | isPresent p | readText p | now => trivial
  | _ => exact h.elim

/-- The program only looks, and ends with a fault, if what is known of the answers is right. -/
def Program.Withdraws {α : Type} (R : Knowledge) : Program (Except Fault α) → Prop
  | .done result => ∃ fault, result = .error fault
  | .act action next => action.Looks ∧ ∀ answer, R action answer → (next answer).Withdraws R

theorem Calm.leaves {R : Knowledge} {w x : World} {action : Action} {answer : action.Answer}
    (h : Calm R w action answer x) : w.files.Leaves w.here action x.files := by
  obtain ⟨v, passed, _, run, _⟩ := h
  have left := v.perform_leaves action
  rw [run, passed.files, passed.here] at left
  exact left

namespace Workspace

variable {w : Workspace} {deadline : Instant} {x y : World} {l : Lock} {R : Knowledge}
  {launch : Launch} {holder id : String} {α : Type} {job : Job α}

/-- What is known of the answers up to a deadline: a lock that is read, or made, lasts that long. -/
def Until (w : Workspace) (deadline : Instant) : Knowledge
  | .readText p, answer =>
    p = w.lockPath → ∀ s l, answer = .ok s → Lock.ofText s = .ok l → deadline ≤ l.expires
  | .now, t => t ≤ deadline ∧ deadline ≤ t.addSeconds Lock.lifetime
  | _, _ => True

/-! Locks that last. -/

/-- There is a place for the lock file, and a lock in it does not expire up to the deadline. -/
def Fenced (w : Workspace) (deadline : Instant) (x : World) : Prop :=
  ∃ t, x.files.locate x.here w.lockPath = .ok t ∧
    ∀ s l, x.files.file? t = some (.text s) → Lock.ofText s = .ok l → deadline ≤ l.expires

/-- There is a lock file, and a lock in it does not expire up to the deadline. -/
def Standing (w : Workspace) (deadline : Instant) (x : World) : Prop :=
  ∃ s, x.Sees w.lockPath s ∧ ∀ l, Lock.ofText s = .ok l → deadline ≤ l.expires

theorem Standing.isPresent (h : w.Standing deadline x) : x.files.isPresent x.here w.lockPath = true := by
  obtain ⟨s, seen, _⟩ := h
  exact seen.isPresent

theorem Standing.fenced (h : w.Standing deadline x) : w.Fenced deadline x := by
  obtain ⟨s, seen, lasts⟩ := h
  obtain ⟨t, leads, file⟩ := Files.look_text.mp seen
  refine ⟨t, leads, fun s' l file' => ?_⟩
  cases file.symm.trans file'
  exact lasts l

theorem Standing.passes (h : w.Standing deadline x) (passed : x.Passes y) : w.Standing deadline y := by
  obtain ⟨s, seen, lasts⟩ := h
  exact ⟨s, passed.sees seen, lasts⟩

theorem Standing.keeps {action : Action} (h : ∀ s, action.Keeps (World.Sees w.lockPath s)) :
    action.Keeps (w.Standing deadline) := by
  rintro x ⟨s, seen, lasts⟩
  exact ⟨s, h s x seen, lasts⟩

theorem Standing.of_empty (seen : x.Sees w.lockPath "") : w.Standing deadline x := by
  -- A file that has been made is empty until it is written: no lock, but there.
  have unread : (Lock.ofText "").toOption = none := by decide
  refine ⟨"", seen, fun l read => ?_⟩
  rw [read] at unread
  cases unread

theorem Standing.of_datable (datable : l.Datable) (lasts : deadline ≤ l.expires)
    (seen : x.Sees w.lockPath l.text) : w.Standing deadline x := by
  refine ⟨l.text, seen, fun l' read => ?_⟩
  cases read.symm.trans datable.ofText_text
  exact lasts

theorem Fenced.passes (h : w.Fenced deadline x) (passed : x.Passes y) : w.Fenced deadline y := by
  obtain ⟨t, leads, lasts⟩ := h
  refine ⟨t, ?_, ?_⟩
  · rw [passed.files, passed.here]
    exact leads
  · rw [passed.files]
    exact lasts

theorem Fenced.sees {s : String} (h : w.Fenced deadline x) (seen : x.Sees w.lockPath s)
    (read : Lock.ofText s = .ok l) : deadline ≤ l.expires := by
  obtain ⟨t, leads, lasts⟩ := h
  obtain ⟨t', leads', file⟩ := Files.look_text.mp seen
  cases leads.symm.trans leads'
  exact lasts s l file read

theorem Fenced.of_unheld {t : Trail} (absent : w.Unheld x)
    (leads : x.files.locate x.here w.lockPath = .ok t) : w.Fenced deadline x := by
  refine ⟨t, leads, fun s l file => ?_⟩
  have seen : x.Sees w.lockPath s := Files.look_text.mpr ⟨t, leads, file⟩
  cases absent.symm.trans seen.isPresent

theorem Fenced.of_harmless {action : Action} {answer : action.Answer} (h : w.Fenced deadline x)
    (harmless : action.Harmless) (done : Calm R x action answer y) : w.Fenced deadline y := by
  obtain ⟨t, leads, lasts⟩ := h
  have left := done.leaves
  have apart : ¬x.files.Strikes x.here action t := fun struck => struck.not_harmless harmless
  refine ⟨t, ?_, ?_⟩
  · rw [done.here]
    exact Files.locate_mono left.keepsDirectories leads
  · rw [left.file? apart]
    exact lasts

theorem Fenced.of_removed (h : w.Fenced deadline x) (done : Calm R x (.remove w.lockPath) (.ok ()) y) :
    w.Fenced deadline y := by
  obtain ⟨t, leads, _⟩ := h
  refine .of_unheld done.removed (t := t) ?_
  rw [done.here]
  exact Files.locate_mono done.leaves.keepsDirectories leads

/-! Taking and giving back. -/

/-- What lasts while locks are taken and given back. -/
structure Steady (w : Workspace) (P : World → Prop) : Prop where
  kept : ∀ action, w.Locks action → action.Keeps P
  passes : ∀ x y, x.Passes y → P x → P y

/-- Either no lock file has been made yet, or there is one. -/
def Guard (w : Workspace) (deadline : Instant) (s : World × List Deed) : Prop :=
  w.Fenced deadline s.1 ∧
    (s.2.any (Deed.creates w.lockPath) = false ∨ s.1.files.isPresent s.1.here w.lockPath = true)

theorem Standing.guard {s : World × List Deed} (h : w.Standing deadline s.1) : w.Guard deadline s :=
  ⟨h.fenced, .inr h.isPresent⟩

/-- Before a lock file is made. -/
structure Early (w : Workspace) (deadline : Instant) (P : World → Prop) (s : World × List Deed) :
    Prop where
  fenced : w.Fenced deadline s.1
  property : P s.1
  early : s.2.any (Deed.creates w.lockPath) = false

theorem Early.guard {P : World → Prop} {s : World × List Deed} (h : w.Early deadline P s) :
    w.Guard deadline s :=
  ⟨h.fenced, .inl h.early⟩

theorem Early.step {P : World → Prop} {s t : World × List Deed} {action : Action}
    {answer : action.Answer} (h : w.Early deadline P s) (steady : w.Steady P)
    (harmless : action.Harmless) (done : Recorded (Calm R) s action answer t) :
    w.Early deadline P t where
  fenced := h.fenced.of_harmless harmless done.1
  property := done.1.keeps (steady.kept action (.harmless harmless)) steady.passes h.property
  early := by
    rw [done.2, List.any_cons, Deed.creates_eq_false harmless, h.early]
    rfl

theorem Early.always {P : World → Prop} {s : World × List Deed} (h : w.Early deadline P s)
    (steady : w.Steady P) (within : Within Action.Harmless job) :
    job.Always (Recorded (Calm R)) (w.Guard deadline) (fun _ => w.Early deadline P)
      (fun _ t => w.Fenced deadline t.1) s :=
  (within.always (fun _ _ _ _ harmless done early => early.step steady harmless done) h).mono
    (fun _ => Early.guard) (fun _ _ h => h) fun _ _ => Early.fenced

/-- Once a lock file is made, there is always one while the lock is written. -/
theorem fill_always {P : World → Prop} (steady : w.Steady P) (datable : l.Datable)
    (lasts : deadline ≤ l.expires) (made : w.Standing deadline x) (met : P x) :
    Job.Always (Calm R) (w.Standing deadline) (do
        (← Job.perform (.write w.lockPath l.text)) |> Job.orFail (lockFault "write")
        (← Job.perform (.sync w.lockPath)) |> Job.orFail (lockFault "sync"))
      (fun _ y => w.Standing deadline y ∧ P y) (fun _ => w.Standing deadline) x := by
  refine Always.perform_bind made fun answer y done => ?_
  have met := done.keeps (steady.kept _ (.write _)) steady.passes met
  refine Always.orFail_bind (fun _ ok => ?_) fun e failed => ?_
  · cases ok
    have standing : w.Standing deadline y := .of_datable datable lasts done.write
    refine Always.perform_bind standing fun answer z synced => ?_
    have standing := standing.passes synced.synced.2
    have met := synced.keeps (steady.kept _ .sync) steady.passes met
    exact Always.orFail (fun _ _ => ⟨standing, met⟩) fun _ _ => standing
  · cases failed
    exact made.passes done.write_failed

theorem writeLock_stands {P : World → Prop} {s : World × List Deed} (steady : w.Steady P)
    (datable : l.Datable) (lasts : deadline ≤ l.expires) (early : w.Early deadline P s) :
    (w.writeLock l).Always (Recorded (Calm R)) (w.Guard deadline)
      (fun _ t => w.Standing deadline t.1 ∧ P t.1) (fun _ t => w.Fenced deadline t.1) s := by
  refine Always.bind _ (early.always steady prepare_within) fun _ s early => ?_
  refine Always.perform_bind early.guard fun answer t done => ?_
  have met := done.1.keeps (steady.kept _ .create) steady.passes early.property
  refine Always.orFail_bind (fun _ ok => ?_) fun e failed => ?_
  · cases ok
    exact (fill_always steady datable lasts (.of_empty done.1.created) met).recorded.mono
      (fun _ => Standing.guard) (fun _ _ h => h) fun _ _ => Standing.fenced
  · cases failed
    exact early.fenced.passes done.1.create_failed

theorem take_stands {P : World → Prop} {s : World × List Deed} (steady : w.Steady P)
    (early : w.Early deadline P s) :
    (w.take launch holder).Always (Recorded (Calm (w.Until deadline))) (w.Guard deadline)
      (fun _ t => w.Standing deadline t.1 ∧ P t.1) (fun _ t => w.Fenced deadline t.1) s := by
  have named : Within Action.Harmless (nameHolder launch holder) := nameHolder_within.mono fun _ => .inl
  have reads : Action.now.Harmless := .inl trivial
  have asks : Action.freshId.Harmless := .inl trivial
  refine Always.bind _ (early.always steady named) fun holder s early => ?_
  refine Always.perform_bind early.guard fun now t read => ?_
  have early := early.step steady reads read
  have timely := read.1.now.2
  have lasts := read.1.known.2
  refine Always.perform_bind early.guard fun id t given => ?_
  have early := early.step steady asks given
  refine Always.bind _ (writeLock_stands steady (Lock.make_datable timely) lasts early) fun _ _ met => ?_
  exact Always.pure met

theorem release_stands {P : World → Prop} (steady : w.Steady P) (standing : w.Standing deadline x)
    (met : P x) : (w.release id).Always (Calm R) (w.Standing deadline)
      (fun _ y => w.Fenced deadline y ∧ P y) (fun _ => w.Fenced deadline) x := by
  refine Always.bind _ (lock?_within.passing.mono (fun _ => standing.passes) (fun _ _ h => h)
    fun _ _ passed => standing.fenced.passes passed) fun found y passed => ?_
  have standing := standing.passes passed
  have met := steady.passes x y passed met
  have kept : w.Fenced deadline y ∧ P y := ⟨standing.fenced, met⟩
  cases found with
  | none => exact Always.pure kept
  | some held =>
      dsimp only
      split
      · refine Always.perform_bind standing fun present z looked => ?_
        have standing := standing.passes (looked.passes trivial)
        have met := steady.passes _ _ (looked.passes trivial) met
        split
        · refine Always.perform_bind standing fun answer u removed => ?_
          have met := removed.keeps (steady.kept _ .remove) steady.passes met
          refine Always.orFail (fun _ ok => ?_) fun e failed => ?_
          · cases ok
            exact ⟨standing.fenced.of_removed removed, met⟩
          · cases failed
            exact standing.fenced.passes removed.remove_failed
        · exact Always.pure ⟨standing.fenced, met⟩
      · exact Always.pure kept

theorem steady_true : w.Steady fun _ => True := ⟨fun _ _ _ _ => trivial, fun _ _ _ _ => trivial⟩

/-- Takes the lock, does something and gives the lock back, once no lock is in the way. -/
def claim (w : Workspace) (launch : Launch) (job : Job α) : Job α := do
  let lock ← w.take launch ""
  let result ← Job.attempt job
  w.release lock.id
  Job.ofExcept result

/-- A job that leaves the lock alone has its effect under the lock, if it does not fail. -/
theorem claim_stands {P Q : World → Prop} {s : World × List Deed} (steady : w.Steady P)
    (steady' : w.Steady Q) (within : Within w.Saves job)
    (effect : ∀ x, P x →
      job.Always (Calm (w.Until deadline)) (fun _ => True) (fun _ => Q) (fun _ _ => True) x)
    (early : w.Early deadline P s) :
    (w.claim launch job).Always (Recorded (Calm (w.Until deadline))) (w.Guard deadline)
      (fun _ t => w.Fenced deadline t.1 ∧ Q t.1) (fun _ t => w.Fenced deadline t.1) s := by
  have held : ∀ id x, w.Standing deadline x → P x → Always (Calm (w.Until deadline)) (w.Standing deadline)
      (do let result ← Job.attempt job; w.release id; Job.ofExcept result)
      (fun _ y => w.Fenced deadline y ∧ Q y) (fun _ => w.Fenced deadline) x := by
    intro id x standing met
    have kept : job.Always (Calm (w.Until deadline)) (w.Standing deadline) _ _ x :=
      within.calm (fun _ saves => Standing.keeps fun _ => saves.keeps_lock) (fun _ _ p h => h.passes p) standing
    refine Always.bind _ ((kept.and (effect x met)).attempt.mono (fun _ h => h.1) (fun _ _ h => h)
      fun _ _ h => h) ?_
    rintro result y after
    cases result with
    | ok a => exact Always.bind _ (release_stands steady' after.1 after.2) fun _ _ h => Always.pure h
    | error fault =>
        exact Always.bind _ (release_stands steady_true after.1 trivial) fun _ _ h => Always.throw h.1
  refine Always.bind _ (take_stands steady early) ?_
  rintro lock t ⟨standing, met⟩
  exact (held lock.id t.1 standing met).recorded.mono (fun _ => Standing.guard) (fun _ _ h => h)
    fun _ _ h => h

/-- What is done where a lock file has been found. -/
def confront (w : Workspace) (launch : Launch) (job : Job α) : Job α := do
  let text ← (← Job.perform (.readText w.lockPath)) |> Job.orFail fun e =>
    .workspace (.corrupted ("Failed to read lock file: " ++ e.message))
  match Lock.ofText text with
  | .error fault => throw (.workspace (.corrupted ("Failed to parse lock file: " ++ fault.message)))
  | .ok held =>
    if held.IsExpired (← Job.perform .now) then w.claim launch job
    else throw (.workspace (.lockedByOther held.holder held.acquired.shown))

theorem locked_eq : w.locked launch job = (do
    if ← Job.isPresent w.lockPath then w.confront launch job else w.claim launch job) := by
  unfold locked
  rw [acquire_eq]
  unfold lock? confront claim
  simp only [bind_assoc]
  apply congrArg (bind (Job.isPresent w.lockPath))
  funext present
  cases present with
  | false => simp only [Bool.not_false, if_true, pure_bind, Bool.false_eq_true, if_false]
  | true =>
      simp only [Bool.not_true, Bool.false_eq_true, if_false, if_true, bind_assoc]
      apply congrArg (bind (Job.perform _))
      funext answer
      apply congrArg (bind (Job.orFail _ answer))
      funext text
      cases Lock.ofText text with
      | error fault => simp only [Job.throw_bind]
      | ok held =>
          simp only [pure_bind, bind_assoc]
          apply congrArg (bind (Job.perform _))
          funext now
          split <;> rfl

/-- Whoever finds a lock file fails, and only looks before. -/
theorem confront_withdraws :
    Program.Withdraws (w.Until deadline) (ExceptT.run (w.confront launch job)) := by
  refine ⟨trivial, fun answer known => ?_⟩
  cases answer with
  | error e => exact ⟨_, rfl⟩
  | ok s =>
      change Program.Withdraws _ (ExceptT.run (match Lock.ofText s with
        | .error fault => _
        | .ok held => _))
      split
      · exact ⟨_, rfl⟩
      · next held read =>
        -- The lock that was read lasts to the deadline, and the clock is not past it.
        refine ⟨trivial, fun now before => ?_⟩
        have live : ¬held.IsExpired now :=
          fun expired => absurd (lt_of_lt_of_le expired before.1) (not_lt_of_ge (known rfl s held rfl read))
        change Program.Withdraws _ (ExceptT.run (if held.IsExpired now then _ else _))
        rw [if_neg live]
        exact ⟨_, rfl⟩

end Workspace
end AssessmentPlans
