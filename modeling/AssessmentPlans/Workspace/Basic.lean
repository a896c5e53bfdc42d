import AssessmentPlans.Plan.Format
import AssessmentPlans.Launch
import AssessmentPlans.Program
import AssessmentPlans.Workspace.Lock

/-! Workspaces: directories that hold a plan, and a lock while it is being changed. -/
namespace AssessmentPlans

structure Workspace where
  root : Path
  deriving DecidableEq

namespace Workspace

def planName : String := "assessment-plan.json"

def lockName : String := ".complytime.lock"

/-- The name under which a plan is written before it takes its place. -/
def draftName : String := "assessment-plan.json.tmp"

def planPath (w : Workspace) : Path := w.root.child planName

def lockPath (w : Workspace) : Path := w.root.child lockName

def draftPath (w : Workspace) : Path := w.root.child draftName

/-- Makes the directory if nothing is there. -/
def prepare (w : Workspace) : Job Unit := do
  if !(← Job.isPresent w.root) then
    (← Job.perform (.makeDirectory w.root)) |> Job.orFail fun e =>
      .workspace (.unavailable ("Failed to create " ++ w.root.text ++ ": " ++ e.message))

/-! The lock. -/

def lockFault (step : String) (e : FileError) : Fault :=
  .workspace (.lockFailed ("Failed to " ++ step ++ " lock file: " ++ e.message))

/-- The lock on the workspace, if there is one. -/
def lock? (w : Workspace) : Job (Option Lock) := do
  if !(← Job.isPresent w.lockPath) then return none
  let text ← (← Job.perform (.readText w.lockPath)) |> Job.orFail fun e =>
    .workspace (.corrupted ("Failed to read lock file: " ++ e.message))
  match Lock.ofText text with
  | .ok lock => return some lock
  | .error fault =>
    throw (.workspace (.corrupted ("Failed to parse lock file: " ++ fault.message)))

def writeLock (w : Workspace) (lock : Lock) : Job Unit := do
  w.prepare
  (← Job.perform (.create w.lockPath)) |> Job.orFail (lockFault "create")
  (← Job.perform (.write w.lockPath lock.text)) |> Job.orFail (lockFault "write")
  (← Job.perform (.sync w.lockPath)) |> Job.orFail (lockFault "sync")

/-- The name of a holder that has none: the host, the number of the run and eight digits. -/
def holderName (launch : Launch) (id : String) : String :=
  launch.host ++ "-" ++ toString launch.number ++ "-" ++ String.ofList (id.toList.take 8)

/-- Takes the lock, unless another one still holds. -/
def acquire (w : Workspace) (launch : Launch) (holder : String) : Job Lock := do
  if let some held ← w.lock? then
    if !held.IsExpired (← Job.perform .now) then
      throw (.workspace (.lockedByOther held.holder held.acquired.shown))
  let holder ← if holder = "" then do
      pure (holderName launch (← Job.perform .freshId))
    else pure holder
  let now ← Job.perform .now
  let lock := Lock.make (← Job.perform .freshId) holder now
  w.writeLock lock
  return lock

def removeLock (w : Workspace) : Job Unit := do
  if ← Job.isPresent w.lockPath then
    (← Job.perform (.remove w.lockPath)) |> Job.orFail (lockFault "delete")

/-- Gives a lock back. A lock that is not on the workspace any more stays away from
the one that is. -/
def release (w : Workspace) (id : String) : Job Unit := do
  if let some held ← w.lock? then
    if held.id = id then w.removeLock

/-! The plan. -/

/-- The plan of the workspace, if there is one. -/
def plan? (w : Workspace) : Job (Option Plan) := do
  if !(← Job.isPresent w.planPath) then return none
  let text ← (← Job.perform (.readText w.planPath)) |> Job.orFail Job.ioFault
  match Plan.ofText text with
  | .ok plan => return some plan
  | .error fault => throw (.plan (.unreadable fault.message (some w.planPath.text)))

/-- The plan of a workspace that should have one. -/
def plan (w : Workspace) : Job Plan := do
  match ← w.plan? with
  | some plan => return plan
  | none => throw (.plan (.notFound w.root.text))

/-- Writes a plan. It is written under another name first and then moved, so that the
plan is never there in part. -/
def save (w : Workspace) (plan : Plan) : Job Unit := do
  w.prepare
  (← Job.perform (.create w.draftPath)) |> Job.orFail Job.ioFault
  (← Job.perform (.write w.draftPath plan.text)) |> Job.orFail Job.ioFault
  (← Job.perform (.sync w.draftPath)) |> Job.orFail Job.ioFault
  (← Job.perform (.rename w.draftPath w.planPath)) |> Job.orFail Job.ioFault

end Workspace
end AssessmentPlans
