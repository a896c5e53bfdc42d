import AssessmentPlans.Bundle
import AssessmentPlans.Command.Basic
import AssessmentPlans.Config.Format
import AssessmentPlans.Config.Sources
import AssessmentPlans.Framework
import AssessmentPlans.Pipeline
import AssessmentPlans.Workspace.Basic

/-! The commands. A command that changes the plan holds the workspace's lock from
before it reads the plan until after it has written it. -/
namespace AssessmentPlans

/-- Prints output, with a line break at the end. -/
def emit (text : String) : Job Unit := do
  let whole := if text.toList.getLast? = some '\n' then text else text ++ "\n"
  (← Job.perform (.print whole)) |> Job.orFail Job.ioFault

/-- Fresh identifiers. -/
def freshIds : Nat → Job (List String)
  | 0 => return []
  | n + 1 => do
    let id ← Job.perform .freshId
    return id :: (← freshIds n)

/-- Marks a plan as changed now. -/
def Plan.touch (now : Instant) (p : Plan) : Plan :=
  { p with metadata := { p.metadata with lastModified := now.stamp } }

def loadDefinitions (launch : Launch) (directory : Option Path) : Job (List Definition) := do
  let b ← match directory with
    | some directory => pure (Bundle.ofDirectory directory)
    | none => Bundle.common launch
  b.definitions

/-- The configuration of a workspace, after it has been found valid. -/
def loadValid (launch : Launch) (workspace : Path) (file : Option Path)
    (expected : Option String) : Job (ScopeConfig × Launch) := do
  let (c, launch) ← ScopeConfig.load launch workspace file
  match c.validate expected with
  | .error fault => throw (.config fault)
  | .ok warnings =>
    warnings.forM Job.warn
    return (c, launch)

/-- Does something under the workspace's lock. The lock is given back even if that
fails; not being able to give it back is the worse fault. -/
def Workspace.locked {α} (w : Workspace) (launch : Launch) (job : Job α) : Job α := do
  let lock ← w.acquire launch ""
  let result ← Job.attempt job
  w.release lock.id
  Job.ofExcept result

/-- Builds the plan for a framework and tells what has been left out of it. -/
def buildPlan (framework : String) (ds : List Definition) (scope : Option Scope) :
    Job (Plan × Report) := do
  let ids ← freshIds (freshIdCount framework ds)
  let now ← Job.perform .now
  let (account, result) := runPipeline framework ds scope (fun n => ids[n]?.getD "") now.stamp
  account.warnings.forM Job.warn
  match result with
  | .error fault => throw (.plan fault)
  | .ok plan => return (plan, account.report)

/-- Shows the configuration with which all of a framework is planned. -/
def showTemplate (framework : String) (ds : List Definition) : Job Unit :=
  match ScopeConfig.template framework ds with
  | .error fault => throw (.plan fault)
  | .ok c => emit c.yaml

def styleOf (launch : Launch) (format : OutputFormat) : Style := ⟨format, launch.colored⟩

def runPlan (launch : Launch) (format : OutputFormat) (w : Workspace) (bundles : Option Path)
    (framework : String) (dryRun tailored : Bool) : Job Unit := do
  let ds ← loadDefinitions launch bundles
  if dryRun then showTemplate framework ds
  else
    let (scope, launch) ← if tailored then do
        let (c, launch) ← loadValid launch w.root none (some framework)
        pure (some c.scope, launch)
      else pure (none, launch)
    let style := styleOf launch format
    let (plan, report) ← buildPlan framework ds scope
    if scope.isSome then emit (style.report report)
    let plan := plan.touch (← Job.perform .now)
    w.locked launch (w.save plan)
    Job.tell (style.success ("Assessment plan written to " ++ w.planPath.text))

/-- Tailors the workspace's plan in place. -/
def tailorSaved (w : Workspace) (scope : Scope) : Job Report := do
  let (plan, account, result) := tailorPlan scope (← w.plan)
  account.warnings.forM Job.warn
  if let .error fault := result then throw (.plan fault)
  w.save (plan.touch (← Job.perform .now))
  return account.report

def runTailor (launch : Launch) (format : OutputFormat) (w : Workspace) (file : Option Path) :
    Job Unit := do
  let (c, launch) ← loadValid launch w.root file none
  let style := styleOf launch format
  let report ← w.locked launch (tailorSaved w c.scope)
  emit (style.report report)
  Job.tell (style.success
    s!"Assessment plan tailored to {c.scope.controls.size} control(s) of {c.framework}")

/-- Checks the workspace's plan. The first error is the fault of the command. -/
def runValidate (launch : Launch) (format : OutputFormat) (w : Workspace) (warnings : Bool) :
    Job Unit := do
  let issues := (← w.plan).issues
  emit ((styleOf launch format).issues warnings issues)
  match issues.errors with
  | [] => return
  | first :: _ => throw (.plan (.invalid first.message first.path))

def runList (launch : Launch) (format : OutputFormat) (bundles : Option Path) : Job Unit := do
  let ds ← loadDefinitions launch bundles
  emit ((styleOf launch format).frameworks (availableFrameworks ds))

/-- Does what an invocation asks for. -/
def Invocation.run (launch : Launch) (i : Invocation) : Job Unit :=
  let w : Workspace := ⟨⟨i.workspace⟩⟩
  let bundles := i.bundles.map Path.mk
  match i.command with
  | .plan framework dryRun tailored =>
    runPlan launch i.output w bundles framework dryRun tailored
  | .tailor config => runTailor launch i.output w (config.map Path.mk)
  | .validate warnings => runValidate launch i.output w warnings
  | .list => runList launch i.output bundles

end AssessmentPlans
