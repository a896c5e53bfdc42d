import AssessmentPlans.Config.Format
import AssessmentPlans.Launch
import AssessmentPlans.Program

/-! Where a scope configuration comes from: a file, and environment variables, which
a file beside it may set. -/
namespace AssessmentPlans.ScopeConfig

/-- The names of configuration files, in the order in which they are looked for. -/
def fileNames : List String := ["assessment-plan-filter.yml", "assessment-plan-filter.yaml"]

def firstName : String := "assessment-plan-filter.yml"

/-- The first of some paths where something is. -/
def firstPresent : List Path → Job (Option Path)
  | [] => return none
  | p :: ps => do if ← Job.isPresent p then return some p else firstPresent ps

/-- The configuration file of a workspace. -/
def findFile (workspace : Path) : Job Path := do
  match ← firstPresent (fileNames.map workspace.child) with
  | some p => return p
  | none => throw (.config (.notFound (workspace.child firstName).text))

/-- A relative path begins at the base, if there is one. -/
def resolve (base : Option Path) (p : Path) : Path :=
  match base with
  | some base => base.join p
  | none => p

/-- Reads a configuration file. -/
def loadFile (base : Option Path) (p : Path) : Job ScopeConfig := do
  let path := resolve base p
  if !(← Job.isPresent path) then throw (.config (.notFound path.text))
  let text ← (← Job.perform (.readText path)) |> Job.orFail fun e =>
    .config (.unreadable ("Failed to read file: " ++ e.message) (some path.text))
  match parse text (some path.text) with
  | .error fault => throw (.config fault)
  | .ok (c, warnings) =>
    warnings.forM Job.warn
    return c

def variablesFault (path : Path) (message : String) : Fault :=
  .config (.unreadable ("Failed to load .env file: " ++ message) (some path.text))

/-- Adds the variables of the file beside the configuration, if there is one. Those
before a fault in it are set. -/
def loadVariables (base : Option Path) (vars : DotEnv.Variables) :
    Job (DotEnv.Variables × Except Fault Unit) := do
  let path := resolve base ⟨".env"⟩
  if !(← Job.isPresent path) then return (vars, .ok ())
  match ← Job.perform (.readLines path) with
  | .error e => return (vars, .error (variablesFault path e.message))
  | .ok (text, ending) =>
    let (vars, fault) := DotEnv.load text vars
    match fault, ending with
    | some fault, _ => return (vars, .error (variablesFault path fault.message))
    | none, some e => return (vars, .error (variablesFault path e.message))
    | none, none => return (vars, .ok ())

/-- The configuration of a workspace, or of the file that the user names, under the
environment's variables and those that the workspace adds to them. -/
def load (launch : Launch) (workspace : Path) (file : Option Path) :
    Job (ScopeConfig × Launch) := do
  let (environment, result) ← loadVariables (some workspace) launch.environment
  Job.ofExcept result
  let launch := { launch with environment }
  let path ← match file with
    | some path => pure path
    | none => findFile workspace
  let c ← loadFile (some workspace) (path.absolute launch.directory)
  return (c.override launch.valueOf?, launch)

end AssessmentPlans.ScopeConfig
