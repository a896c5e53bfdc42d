import AssessmentPlans.Proofs.Disturbance
import AssessmentPlans.Proofs.Workspace.Exclusion

/-! The lock of a run that is alone. A lock file that it makes is that of its own lock, so the
lock is given back whatever is done in between; and up to then the lock file is left alone. -/
namespace AssessmentPlans

open Job

namespace Workspace

variable {w : Workspace} {start x y : World} {l : Lock} {id : String} {launch : Launch}
  {holder : String} {mark : Deed → Bool} {s t : World × List Deed} {α : Type} {job : Job α}

theorem Saves.apart {action : Action} (h : w.Saves action) {f : Files} {here t : Trail}
    (last : t.getLast? = some lockName) : ¬f.Strikes here action t := by
  cases h with
  | drafts h =>
      cases h with
      | harmless h => exact fun struck => struck.not_harmless h
      | create => exact locate_apart draftName_proper (by decide) last
      | write text => exact locate_apart draftName_proper (by decide) last
      | sync => exact locate_apart draftName_proper (by decide) last
  | rename =>
      rintro (leads | leads)
      · exact locate_apart draftName_proper (by decide) last leads
      · exact locate_apart planName_proper (by decide) last leads

/-- Saving leaves the lock file alone, whatever fails. -/
theorem Saves.sees_lock {action : Action} {answer : action.Answer} {text : String}
    (h : w.Saves action) (done : Disturbed x action answer y) (seen : x.Sees w.lockPath text) :
    y.Sees w.lockPath text :=
  done.sees (fun _ leads => h.apart (Files.locate_child lockName_proper leads)) seen

theorem Unheld.stays (absent : w.Unheld x) (stays : x.Stays y) : w.Unheld y := by
  rw [Unheld, stays.files, stays.here]
  exact absent

/-! What has not been touched. -/

/-- Directories may have been made, and nothing has been done that bears the mark. -/
structure Untouched (mark : Deed → Bool) (start : World) (s : World × List Deed) : Prop where
  here : s.1.here = start.here
  furnished : start.files.Furnished s.1.files
  unmarked : s.2.any mark = false

theorem Untouched.refl (mark : Deed → Bool) (start : World) : Untouched mark start (start, []) :=
  ⟨rfl, .refl _, rfl⟩

theorem Untouched.step {action : Action} {answer : action.Answer} (h : Untouched mark start s)
    (harmless : action.Harmless) (silent : mark ⟨action, answer⟩ = false)
    (done : Recorded Disturbed s action answer t) : Untouched mark start t where
  here := done.1.here.trans h.here
  furnished := h.furnished.trans (done.1.leaves.furnished harmless)
  unmarked := by
    rw [done.2, List.any_cons, silent, h.unmarked]
    rfl

/-- What changes nothing that is there touches nothing. -/
theorem Untouched.always {env : Surroundings World} (h : Untouched mark start s)
    (tame : ∀ x action answer y, env x action answer y → Disturbed x action answer y)
    (silent : ∀ action answer, action.Harmless → mark ⟨action, answer⟩ = false)
    (within : Within Action.Harmless job) :
    job.Always (Recorded env) (Untouched mark start) (fun _ => Untouched mark start)
      (fun _ => Untouched mark start) s :=
  within.always (fun _ action answer _ harmless done h =>
    h.step harmless (silent action answer harmless) ⟨tame _ _ _ _ done.1, done.2⟩) h

/-- A lock that is seen was there before, if its place was. -/
theorem Untouched.held (h : Untouched mark start s) (here : w.Held l s.1) :
    w.Unheld start ∨ w.Held l start := by
  cases there : start.files.look start.here w.lockPath with
  | error e =>
      left
      rw [Unheld, Files.isPresent, there]
  | ok e =>
      right
      obtain ⟨text, seen, read⟩ := here
      have same := h.furnished.look there
      rw [← h.here, seen] at same
      cases same
      exact ⟨text, there, read⟩

theorem Untouched.unheld (h : Untouched mark start s) (absent : w.Unheld s.1) : w.Unheld start := by
  rw [Unheld, Files.isPresent]
  split
  · next e there =>
    have seen := h.furnished.look there
    rw [Unheld, Files.isPresent, h.here, seen] at absent
    exact absent
  · rfl

theorem Untouched.vacant {now : Instant} (h : Untouched mark start s) (vacant : w.Vacant s.1 now) :
    w.Vacant start now := by
  rcases vacant with absent | ⟨held, here, expired⟩
  · exact .inl (h.unheld absent)
  · rcases h.held here with absent | there
    · exact .inl absent
    · exact .inr ⟨held, there, expired⟩

/-! Failures besides those on the lock file. -/

theorem lock?_spared : w.lock?.Always (Sparing w.lockPath) (fun _ => True)
    (fun found y => x.Stays y ∧ ((found = none ∧ w.Unheld x) ∨ ∃ l, found = some l ∧ w.Held l x))
    (fun _ y => x.Stays y ∧ ¬w.Unheld x ∧ ∀ l, ¬w.Held l x) x := by
  refine lock?_shown (fun y action answer z passive own stays done => ?_) (.refl x)
  obtain ⟨v, same, calm⟩ := done.calm own
  have shown : answer = (y.perform action).1 :=
    (calm.shown passive own).trans (same.perform passive own)
  exact ⟨stays.trans (done.disturbed.stays passive), shown.trans (stays.perform passive own)⟩

/-- The own lock is given back. -/
theorem release_spared (datable : l.Datable) (own : x.Sees w.lockPath l.text) :
    (w.release l.id).Always (Sparing w.lockPath) (fun _ => True) (fun _ y => w.Unheld y)
      (fun _ _ => False) x := by
  have here : w.Held l x := .of_datable datable own
  refine Always.bind _ (lock?_spared.mono (fun _ h => h) (fun _ _ h => h) ?_) ?_
  · rintro _ y ⟨_, _, unread⟩
    exact unread l here
  · rintro found y ⟨stays, ⟨rfl, absent⟩ | ⟨held, rfl, there⟩⟩
    · exact absurd absent here.not_unheld
    · cases here.unique there
      dsimp only
      rw [if_pos rfl]
      have own := stays.sees own
      refine Always.perform_bind trivial fun present z looked => ?_
      obtain ⟨v, same, calm⟩ := looked.calm rfl
      cases calm.isPresent.trans (same.sees own).isPresent
      have own := (looked.disturbed.stays trivial).sees own
      refine Always.perform_bind trivial fun answer u removed => ?_
      obtain ⟨v, same, calm⟩ := removed.calm rfl
      cases calm.remove_succeeds (same.sees own)
      exact Always.pure calm.removed

/-- A lock file that has been made is filled. -/
theorem fillLock_spared (made : x.Sees w.lockPath "") :
    Job.Always (Sparing w.lockPath) (fun _ => True) (do
        (← Job.perform (.write w.lockPath l.text)) |> Job.orFail (lockFault "write")
        (← Job.perform (.sync w.lockPath)) |> Job.orFail (lockFault "sync"))
      (fun _ y => y.Sees w.lockPath l.text) (fun _ _ => False) x := by
  refine Always.perform_bind trivial fun answer y written => ?_
  obtain ⟨v, same, calm⟩ := written.calm rfl
  cases calm.write_succeeds (same.sees made)
  have seen := calm.write
  refine Always.perform_bind trivial fun answer z synced => ?_
  obtain ⟨v, same, calm⟩ := synced.calm rfl
  obtain ⟨rfl, passed⟩ := calm.synced
  exact Always.pure (passed.sees (same.sees seen))

/-- No lock was in the way, by a clock that was looked at. -/
def Cleared (w : Workspace) (start : World) (log : List Deed) : Prop :=
  ∃ now, ⟨.now, now⟩ ∈ log ∧ w.Vacant start now

theorem Cleared.cons {log : List Deed} (d : Deed) (h : w.Cleared start log) : w.Cleared start (d :: log) := by
  obtain ⟨now, member, vacant⟩ := h
  exact ⟨now, List.mem_cons_of_mem d member, vacant⟩

/-- A lock file has been made where no lock was in the way. -/
structure Claimed (w : Workspace) (start : World) (log : List Deed) : Prop where
  made : log.any (Deed.made w.lockPath) = true
  cleared : w.Cleared start log

theorem Claimed.cons {log : List Deed} (d : Deed) (h : w.Claimed start log) :
    w.Claimed start (d :: log) where
  made := Deed.any_cons d h.made
  cleared := h.cleared.cons d

theorem untouched_spared (within : Within Action.Harmless job)
    (h : Untouched (Deed.made w.lockPath) start s) :
    job.Always (Recorded (Sparing w.lockPath)) (fun _ => True)
      (fun _ => Untouched (Deed.made w.lockPath) start)
      (fun _ => Untouched (Deed.made w.lockPath) start) s :=
  (h.always (fun _ _ _ _ => Sparing.disturbed) (fun _ _ => Deed.made_eq_false) within).mono
    (fun _ _ => trivial) (fun _ _ h => h) fun _ _ h => h

theorem writeLock_spared (h : Untouched (Deed.made w.lockPath) start s) (cleared : w.Cleared start s.2) :
    (w.writeLock l).Always (Recorded (Sparing w.lockPath)) (fun _ => True)
      (fun _ t => t.1.Sees w.lockPath l.text ∧ w.Claimed start t.2)
      (fun _ => Untouched (Deed.made w.lockPath) start) s := by
  have prepared : Within Action.Harmless w.prepare := prepare_within
  have looked := (untouched_spared prepared h).noted (fun d _ => Cleared.cons d) cleared
  refine Always.bind _ (looked.mono (fun _ h => h.1) (fun _ _ h => h) fun _ _ h => h.1) ?_
  rintro _ t ⟨h, cleared⟩
  refine Always.perform_bind trivial fun answer u done => ?_
  obtain ⟨v, same, calm⟩ := done.1.calm rfl
  refine Always.orFail_bind (fun _ ok => ?_) fun e failed => ?_
  · cases ok
    have claimed : w.Claimed start u.2 := by
      rw [done.2]
      exact ⟨Deed.any_head (decide_eq_true rfl) _, cleared.cons _⟩
    refine ((fillLock_spared calm.created).recorded.noted (fun d _ => Claimed.cons d) claimed).mono ?_ ?_ ?_
    · exact fun _ h => h.1
    · exact fun _ _ h => h
    · exact fun _ _ h => h.1.elim
  · cases failed
    have same := same.trans calm.create_failed.stays
    refine ⟨same.here.trans h.here, ?_, ?_⟩
    · rw [same.files]
      exact h.furnished
    · rw [done.2, List.any_cons, h.unmarked]
      rfl

theorem take_spared (h : Untouched (Deed.made w.lockPath) start s)
    (free : w.Unheld start ∨ w.Cleared start s.2) :
    (w.take launch holder).Always (Recorded (Sparing w.lockPath)) (fun _ => True)
      (fun lock t => (lock.Datable ∧ t.1.Sees w.lockPath lock.text) ∧ w.Claimed start t.2)
      (fun _ => Untouched (Deed.made w.lockPath) start) s := by
  have named : Within Action.Harmless (nameHolder launch holder) := nameHolder_within.mono fun _ => .inl
  have reads : Action.now.Harmless := .inl trivial
  have asks : Action.freshId.Harmless := .inl trivial
  have looked := (untouched_spared named h).noted (fun d _ => Or.imp_right (Cleared.cons d)) free
  refine Always.bind _ (looked.mono (fun _ h => h.1) (fun _ _ h => h) fun _ _ h => h.1) ?_
  rintro holder s ⟨h, free⟩
  refine Always.perform_bind trivial fun now t read => ?_
  have h := h.step reads rfl ⟨read.1.disturbed, read.2⟩
  have cleared : w.Cleared start t.2 := by
    rw [read.2]
    rcases free with absent | cleared
    · exact ⟨now, List.mem_cons_self, .inl absent⟩
    · exact cleared.cons _
  refine Always.perform_bind trivial fun id u given => ?_
  have h := h.step asks rfl ⟨given.1.disturbed, given.2⟩
  refine Always.bind _ (writeLock_spared h (given.2 ▸ cleared.cons _)) ?_
  rintro _ v ⟨seen, claimed⟩
  exact Always.pure ⟨⟨Lock.make_datable read.1.timely, seen⟩, claimed⟩

/-- A lock is taken where none was in the way, or nothing is touched. -/
theorem acquire_spared (h : Untouched (Deed.made w.lockPath) start s) :
    (w.acquire launch holder).Always (Recorded (Sparing w.lockPath)) (fun _ => True)
      (fun lock t => (lock.Datable ∧ t.1.Sees w.lockPath lock.text) ∧ w.Claimed start t.2)
      (fun _ => Untouched (Deed.made w.lockPath) start) s := by
  have looks : Within Action.Harmless w.lock? := lock?_within.mono fun _ => .inl
  have reads : Action.now.Harmless := .inl trivial
  rw [acquire_eq]
  refine Always.bind _ ((lock?_spared.recorded.and (untouched_spared looks h)).mono (fun _ _ => trivial)
    (fun _ _ h => h) fun _ _ h => h.2) ?_
  rintro found t ⟨⟨stays, ⟨rfl, absent⟩ | ⟨held, rfl, here⟩⟩, h'⟩
  · exact take_spared h' (.inl (h.unheld absent))
  · refine Always.perform_bind trivial fun now u read => ?_
    have h' := h'.step reads rfl ⟨read.1.disturbed, read.2⟩
    split
    · next expired =>
      have vacant : w.Vacant start now := h.vacant (.inr ⟨held, here, expired⟩)
      refine take_spared h' (.inr ⟨now, ?_, vacant⟩)
      rw [read.2]
      exact List.mem_cons_self
    · exact Always.throw h'

/-- What is done under the lock has the lock given back in the end, and fails only as it
fails without the lock. -/
theorem locked_spared (within : Within w.Saves job)
    (h : Untouched (Deed.made w.lockPath) start s) :
    (w.locked launch job).Always (Recorded (Sparing w.lockPath)) (fun _ => True)
      (fun _ t => w.Unheld t.1 ∧ w.Claimed start t.2)
      (fun _ t => Untouched (Deed.made w.lockPath) start t ∨ w.Unheld t.1 ∧ w.Claimed start t.2) s := by
  refine Always.bind _ ((acquire_spared h).mono (fun _ h => h) (fun _ _ h => h) fun _ _ => .inl) ?_
  rintro lock t ⟨⟨datable, own⟩, claimed⟩
  have during : job.Always (Sparing w.lockPath) (World.Sees w.lockPath lock.text)
      (fun _ => World.Sees w.lockPath lock.text) (fun _ => World.Sees w.lockPath lock.text) t.1 :=
    within.always (fun _ _ _ _ saves done seen => saves.sees_lock done.disturbed seen) own
  have given : Always (Sparing w.lockPath) (fun _ => True)
      (do let result ← Job.attempt job; w.release lock.id; Job.ofExcept result)
      (fun _ => w.Unheld) (fun _ => w.Unheld) t.1 := by
    refine Always.bind (fun _ => World.Sees w.lockPath lock.text) ?_ fun result y own => ?_
    · refine during.attempt.mono (fun _ _ => trivial) (fun result y own => ?_) fun _ _ => False.elim
      cases result with
      | ok a => exact own
      | error fault => exact own
    · refine Always.bind _ ((release_spared datable own).mono (fun _ h => h) (fun _ _ h => h)
        fun _ _ => False.elim) fun _ z gone => ?_
      cases result with
      | ok a => exact Always.pure gone
      | error fault => exact Always.throw gone
  exact (given.recorded.noted (fun d _ => Claimed.cons d) claimed).mono (fun _ h => h.1)
    (fun _ _ h => h) fun _ _ => .inr

/-! Failures of any kind. -/

/-- The lock file was to be made, whether or not this has failed. -/
def Begun (w : Workspace) (log : List Deed) : Prop := log.any (Deed.creates w.lockPath) = true

theorem Begun.cons {log : List Deed} (d : Deed) (h : w.Begun log) : w.Begun (d :: log) :=
  Deed.any_cons d h

/-- Nothing is touched before the lock file is to be made. -/
def Guarding (w : Workspace) (start : World) (s : World × List Deed) : Prop :=
  Untouched (Deed.creates w.lockPath) start s ∨ w.Begun s.2

/-- Either no lock file was to be made, or making it is what has failed. -/
def Denied (w : Workspace) (start : World) (fault : Fault) (s : World × List Deed) : Prop :=
  Untouched (Deed.creates w.lockPath) start s ∨ w.Begun s.2 ∧ ∃ m, fault = .workspace (.lockFailed m)

theorem untouched_disturbed (within : Within Action.Harmless job)
    (h : Untouched (Deed.creates w.lockPath) start s) :
    job.Always (Recorded Disturbed) (w.Guarding start)
      (fun _ => Untouched (Deed.creates w.lockPath) start) (w.Denied start) s :=
  (h.always (fun _ _ _ _ done => done) (fun _ _ => Deed.creates_eq_false) within).mono
    (fun _ => .inl) (fun _ _ h => h) fun _ _ => .inl

/-- Once the lock file is to be made, only its own actions fail. -/
theorem writeLock_disturbed (h : Untouched (Deed.creates w.lockPath) start s) :
    (w.writeLock l).Always (Recorded Disturbed) (w.Guarding start) (fun _ t => w.Begun t.2)
      (w.Denied start) s := by
  refine Always.bind _ (untouched_disturbed prepare_within h) fun _ t h => ?_
  have failing : ∀ {step : String} {e : FileError} {u : World × List Deed},
      w.Begun u.2 → w.Denied start (lockFault step e) u :=
    fun begun => .inr ⟨begun, _, rfl⟩
  refine Always.perform_bind (.inl h) fun answer u made => ?_
  have begun : w.Begun u.2 := by
    rw [made.2]
    exact Deed.any_head (decide_eq_true rfl) _
  refine Always.orFail_bind (fun _ _ => ?_) fun _ _ => failing begun
  refine Always.perform_bind (.inr begun) fun answer v written => ?_
  have begun : w.Begun v.2 := written.2 ▸ begun.cons _
  refine Always.orFail_bind (fun _ _ => ?_) fun _ _ => failing begun
  refine Always.perform_bind (.inr begun) fun answer z synced => ?_
  have begun : w.Begun z.2 := synced.2 ▸ begun.cons _
  exact Always.orFail (fun _ _ => begun) fun _ _ => failing begun

theorem take_disturbed (h : Untouched (Deed.creates w.lockPath) start s) :
    (w.take launch holder).Always (Recorded Disturbed) (w.Guarding start) (fun _ t => w.Begun t.2)
      (w.Denied start) s := by
  have named : Within Action.Harmless (nameHolder launch holder) := nameHolder_within.mono fun _ => .inl
  refine Always.bind _ (untouched_disturbed named h) fun holder t h => ?_
  refine Always.bind _ (untouched_disturbed (Within.perform (.inl trivial)) h) fun now u h => ?_
  refine Always.bind _ (untouched_disturbed (Within.perform (.inl trivial)) h) fun id v h => ?_
  exact Always.bind _ (writeLock_disturbed h) fun _ _ begun => Always.pure begun

/-- A lock that is refused has nothing touched. -/
theorem acquire_disturbed (h : Untouched (Deed.creates w.lockPath) start s) :
    (w.acquire launch holder).Always (Recorded Disturbed) (w.Guarding start) (fun _ t => w.Begun t.2)
      (w.Denied start) s := by
  have looks : Within Action.Harmless w.lock? := lock?_within.mono fun _ => .inl
  rw [acquire_eq]
  refine Always.bind _ (untouched_disturbed looks h) fun found t h => ?_
  cases found with
  | none => exact take_disturbed h
  | some held =>
      refine Always.bind _ (untouched_disturbed (Within.perform (.inl trivial)) h) fun now u h => ?_
      split
      · exact take_disturbed h
      · exact Always.throw (.inl h)

theorem locked_disturbed (h : Untouched (Deed.creates w.lockPath) start s) :
    (w.locked launch job).Always (Recorded Disturbed) (w.Guarding start) (fun _ t => w.Begun t.2)
      (fun _ => w.Guarding start) s := by
  refine Always.bind _ ((acquire_disturbed h).mono (fun _ h => h) (fun _ _ h => h) ?_) ?_
  · exact fun _ _ denied => denied.imp_right And.left
  · intro lock t begun
    have noted : Always (Recorded Disturbed) (fun t => True ∧ w.Begun t.2)
        (do let result ← Job.attempt job; w.release lock.id; Job.ofExcept result)
        (fun _ t => True ∧ w.Begun t.2) (fun _ t => True ∧ w.Begun t.2) t :=
      (Always.unconditional _ t).noted (fun d _ => Begun.cons d) begun
    exact noted.mono (fun _ h => .inr h.2) (fun _ _ h => h.2) fun _ _ h => .inr h.2

end Workspace
end AssessmentPlans
