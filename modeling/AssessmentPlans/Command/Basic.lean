import AssessmentPlans.Command.Output

/-! What the program can be asked to do. -/
namespace AssessmentPlans

inductive CommandName where
  | plan
  | tailor
  | validate
  | list
  deriving DecidableEq

namespace CommandName

def all : List CommandName := [.plan, .tailor, .validate, .list]

def text : CommandName → String
  | .plan => "plan"
  | .tailor => "tailor"
  | .validate => "validate"
  | .list => "list"

def ofText? (s : String) : Option CommandName := all.find? (·.text == s)

end CommandName

inductive Command where
  /-- Builds the plan for a framework, or with `dryRun` only shows the configuration
  to start from. With `tailored` the plan is narrowed to the workspace's
  configuration. -/
  | plan (framework : String) (dryRun tailored : Bool)
  | tailor (config : Option String)
  | validate (warnings : Bool)
  | list
  deriving DecidableEq

/-- A command and the settings that all commands share. -/
structure Invocation where
  workspace : String
  bundles : Option String
  debug : Bool
  output : OutputFormat
  command : Command
  deriving DecidableEq

/-- The workspace of an invocation that names none. -/
def defaultWorkspace : String := "./complytime"

def workspaceVariable : String := "COMPLYTIME_WORKSPACE"

def bundlesVariable : String := "COMPLYTIME_BUNDLE_DIR"

end AssessmentPlans
