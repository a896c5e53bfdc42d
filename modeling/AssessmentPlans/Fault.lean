/-! Everything that can go wrong around plans, and how it is told. -/
namespace AssessmentPlans

/-- Faults of scope configurations. -/
inductive ConfigFault where
  | notFound (path : String)
  | unreadable (message : String) (location : Option String)
  | invalid (message : String) (field : Option String)
  deriving DecidableEq

/-- Faults of plans and of the definitions that they come from. -/
inductive PlanFault where
  | notFound (workspace : String)
  | unreadable (message : String) (location : Option String)
  | unwritable (message : String)
  | invalid (message field : String)
  | noDefinitions (path : String)
  | unknownFramework (framework : String)
  deriving DecidableEq

/-- Faults of the workspace and its lock. -/
inductive WorkspaceFault where
  | unavailable (message : String)
  | lockFailed (message : String)
  | lockedByOther (holder since : String)
  | corrupted (message : String)
  deriving DecidableEq

inductive Fault where
  | config (fault : ConfigFault)
  | plan (fault : PlanFault)
  | workspace (fault : WorkspaceFault)
  | io (message : String)
  | internal (message : String)
  deriving DecidableEq

def ConfigFault.message : ConfigFault → String
  | .notFound path => "Configuration file not found: " ++ path
  | .unreadable message _ => "Failed to parse configuration: " ++ message
  | .invalid message _ => "Configuration validation failed: " ++ message

def PlanFault.message : PlanFault → String
  | .notFound workspace =>
    "assessment plan does not exist in workspace " ++ workspace ++
      "\n\nDid you run the plan command?"
  | .unreadable message _ => "Failed to parse assessment plan: " ++ message
  | .unwritable message => "Failed to serialize assessment plan: " ++ message
  | .invalid message field => "Assessment plan validation failed at " ++ field ++ ": " ++ message
  | .noDefinitions path => "no component definitions found in " ++ path
  | .unknownFramework framework =>
    "no control implementations found for framework '" ++ framework ++ "'"

def WorkspaceFault.message : WorkspaceFault → String
  | .unavailable message => "Workspace directory unavailable: " ++ message
  | .lockFailed message => "Failed to acquire workspace lock: " ++ message
  | .lockedByOther holder since =>
    "Workspace is locked by another process (lock holder: " ++ holder ++ ", since: " ++ since ++ ")"
  | .corrupted message => "Workspace file is corrupted: " ++ message

def Fault.message : Fault → String
  | .config fault => "Configuration error: " ++ fault.message
  | .plan fault => "Plan error: " ++ fault.message
  | .workspace fault => "Workspace error: " ++ fault.message
  | .io message => "IO error: " ++ message
  | .internal message => "Internal error: " ++ message

end AssessmentPlans
