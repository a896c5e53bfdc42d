import AssessmentPlans.Command.Run
import AssessmentPlans.Proofs.Workspace.Lock
import AssessmentPlans.Proofs.Workspace.Saving

/-! Taking the lock of a workspace and giving it back. -/
namespace AssessmentPlans

open Job

namespace Workspace

variable {w : Workspace} {l : Lock} {launch : Launch} {holder : String}

/-- What is done with the lock. -/
inductive Locks (w : Workspace) : Action → Prop where
  | harmless {action : Action} (h : action.Harmless) : w.Locks action
  | create : w.Locks (.create w.lockPath)
  | write (text : String) : w.Locks (.write w.lockPath text)
  | sync : w.Locks (.sync w.lockPath)
  | remove : w.Locks (.remove w.lockPath)

theorem Locks.passive {action : Action} (h : action.Passive) : w.Locks action :=
  .harmless (.inl h)

theorem Locks.keeps_plan {s : String} (action : Action) (h : w.Locks action) :
    action.Keeps (World.Sees w.planPath s) := by
  cases h with
  | harmless h => exact World.Sees.of_harmless _ h
  | create => exact World.Sees.of_create planName_proper lockName_proper (by decide)
  | write text => exact World.Sees.of_write planName_proper lockName_proper (by decide)
  | sync => exact World.Sees.of_sync
  | remove => exact World.Sees.of_remove planName_proper lockName_proper (by decide)

theorem Drafts.keeps_lock {s : String} (action : Action) (h : w.Drafts action) :
    action.Keeps (World.Sees w.lockPath s) := by
  cases h with
  | harmless h => exact World.Sees.of_harmless _ h
  | create => exact World.Sees.of_create lockName_proper draftName_proper (by decide)
  | write text => exact World.Sees.of_write lockName_proper draftName_proper (by decide)
  | sync => exact World.Sees.of_sync

theorem Saves.keeps_lock {s : String} (action : Action) (h : w.Saves action) :
    action.Keeps (World.Sees w.lockPath s) := by
  cases h with
  | drafts h => exact h.keeps_lock
  | rename =>
      exact World.Sees.of_rename lockName_proper draftName_proper (by decide) planName_proper (by decide)

/-- A path of the workspace does not lead to a file of another name. -/
theorem locate_apart {f : Files} {here t : Trail} {name other : String} (proper : Files.Proper name)
    (ne : name ≠ other) (last : t.getLast? = some other) :
    f.locate here (w.root.child name) ≠ .ok t := by
  intro leads
  rw [Files.locate_child proper leads] at last
  exact ne (Option.some.inj last)

theorem lock?_within : Within Action.Passive w.lock? := by
  unfold lock?
  refine Within.bind (Within.perform trivial) fun present => ?_
  split
  · exact Within.pure
  · refine Within.bind (Within.perform trivial) fun answer => ?_
    refine Within.bind Within.orFail fun text => ?_
    split
    · exact Within.pure
    · exact Within.throw

theorem writeLock_within : Within w.Locks (w.writeLock l) := by
  refine Within.bind (prepare_within.mono fun _ h => .harmless h) fun _ => ?_
  refine Within.bind (Within.perform .create) fun _ => Within.bind Within.orFail fun _ => ?_
  refine Within.bind (Within.perform (.write _)) fun _ => Within.bind Within.orFail fun _ => ?_
  exact Within.bind (Within.perform .sync) fun _ => Within.orFail

/-- The name of a holder who may have none. -/
def nameHolder (launch : Launch) (holder : String) : Job String :=
  if holder = "" then do
    return holderName launch (← Job.perform .freshId)
  else return holder

/-- Makes a lock, whatever is there. -/
def take (w : Workspace) (launch : Launch) (holder : String) : Job Lock := do
  let holder ← nameHolder launch holder
  let now ← Job.perform .now
  let lock := Lock.make (← Job.perform .freshId) holder now
  w.writeLock lock
  return lock

theorem acquire_eq : w.acquire launch holder = (do
    match ← w.lock? with
    | none => w.take launch holder
    | some held =>
      let now ← Job.perform .now
      if held.IsExpired now then w.take launch holder
      else throw (.workspace (.lockedByOther held.holder held.acquired.shown))) := by
  unfold acquire take nameHolder
  apply congrArg (bind w.lock?)
  funext found
  cases found with
  | none =>
      by_cases unnamed : holder = ""
      · simp only [unnamed, if_true, bind_assoc, pure_bind]
      · simp only [unnamed, if_false, pure_bind]
  | some held =>
      apply congrArg (bind (Job.perform .now))
      funext now
      by_cases expired : held.IsExpired now
      · by_cases unnamed : holder = ""
        · simp only [expired, decide_true, Bool.not_true, Bool.false_eq_true, unnamed, if_false,
            if_true, bind_assoc, pure_bind]
        · simp only [expired, decide_true, Bool.not_true, Bool.false_eq_true, unnamed, if_false,
            if_true, pure_bind]
      · simp only [expired, decide_false, Bool.not_false, if_true, if_false, Job.throw_bind]

theorem nameHolder_within : Within Action.Passive (nameHolder launch holder) := by
  unfold nameHolder
  split
  · exact Within.bind (Within.perform trivial) fun _ => Within.pure
  · exact Within.pure

theorem take_within : Within w.Locks (w.take launch holder) := by
  refine Within.bind (nameHolder_within.mono fun _ h => .passive h) fun holder => ?_
  refine Within.bind (Within.perform (.passive trivial)) fun now => ?_
  refine Within.bind (Within.perform (.passive trivial)) fun id => ?_
  exact Within.bind writeLock_within fun _ => Within.pure

theorem acquire_within : Within w.Locks (w.acquire launch holder) := by
  rw [acquire_eq]
  refine Within.bind (lock?_within.mono fun _ h => .passive h) fun found => ?_
  cases found with
  | none => exact take_within
  | some held =>
      refine Within.bind (Within.perform (.passive trivial)) fun now => ?_
      split
      · exact take_within
      · exact Within.throw

theorem removeLock_within : Within w.Locks w.removeLock := by
  refine Within.bind (Within.perform (.passive trivial)) fun present => ?_
  split
  · exact Within.bind (Within.perform .remove) fun _ => Within.orFail
  · exact Within.pure

theorem release_within {id : String} : Within w.Locks (w.release id) := by
  refine Within.bind (lock?_within.mono fun _ h => .passive h) fun found => ?_
  cases found with
  | none => exact Within.pure
  | some held =>
      dsimp only
      split
      · exact removeLock_within
      · exact Within.pure

end Workspace
end AssessmentPlans
