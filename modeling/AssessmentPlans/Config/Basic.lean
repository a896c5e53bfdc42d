import AssessmentPlans.Distinct
import AssessmentPlans.Fault
import AssessmentPlans.Scope.Selection
import AssessmentPlans.Text.Pieces

/-! Scope configurations: the framework of a plan and the controls to keep, as a
user writes them down. -/
namespace AssessmentPlans

structure ScopeConfig where
  framework : String
  controls : List String
  deriving DecidableEq

namespace ScopeConfig

/-- Drops repeated controls. -/
def dedup (c : ScopeConfig) : ScopeConfig := { c with controls := distinct c.controls }

/-- How many entries `dedup` drops. -/
def repeats (c : ScopeConfig) : Nat := c.controls.length - c.dedup.controls.length

/-- What is logged when repeated controls are dropped. -/
def repeatWarnings (c : ScopeConfig) : List String :=
  if c.repeats = 0 then []
  else [s!"Dropped {c.repeats} duplicate control id(s) from scope configuration"]

/-- A configuration without repeated controls. -/
def make (framework : String) (controls : List String) : ScopeConfig :=
  (ScopeConfig.mk framework controls).dedup

def scope (c : ScopeConfig) : Scope := ⟨c.framework, .ofList c.controls⟩

end ScopeConfig

/-- What can be wrong with a configuration. -/
inductive ConfigDefect where
  | blankFramework
  | blankControl (index : Nat)
  | untrimmedControl (index : Nat) (id : String)
  deriving DecidableEq

namespace ConfigDefect

def field : ConfigDefect → String
  | .blankFramework => "frameworkId"
  | .blankControl index => s!"includeControls[{index}]"
  | .untrimmedControl index _ => s!"includeControls[{index}]"

def message : ConfigDefect → String
  | .blankFramework => "Framework id cannot be empty"
  | .blankControl _ => "Control id cannot be empty"
  | .untrimmedControl _ id => "Control id '" ++ id ++ "' has surrounding whitespace"

def fault (d : ConfigDefect) : ConfigFault := .invalid d.message (some d.field)

end ConfigDefect

namespace ScopeConfig

def controlDefect? (index : Nat) (id : String) : Option ConfigDefect :=
  if Text.Blank id then some (.blankControl index)
  else if Text.trim id ≠ id then some (.untrimmedControl index id)
  else none

/-- All defects, the framework's first and then by position. -/
def defects (c : ScopeConfig) : List ConfigDefect :=
  (if Text.Blank c.framework then [.blankFramework] else []) ++
    (c.controls.mapIdx controlDefect?).filterMap id

/-- Warnings about a configuration for a plan of the expected framework, if one
is expected. -/
def warnings (expected : Option String) (c : ScopeConfig) : List String :=
  (match expected with
    | some framework =>
      if framework = c.framework then []
      else ["frameworkId: scope targets '" ++ c.framework ++ "' but the plan is for '" ++
        framework ++ "'"]
    | none => []) ++
  if c.controls.isEmpty then
    ["includeControls: no controls in scope, the tailored plan will retain no controls"]
  else []

/-- The warnings about a configuration without defects. -/
def validate (expected : Option String) (c : ScopeConfig) : Except ConfigFault (List String) :=
  match c.defects with
  | [] => .ok (c.warnings expected)
  | first :: _ => .error first.fault

end ScopeConfig

/-- The pieces between commas, trimmed and without the empty ones. -/
def commaSeparated (text : String) : List String :=
  ((Text.split ',' text).map Text.trim).filter (· ≠ "")

namespace ScopeConfig

def frameworkVariable : String := "COMPLYTIME_FRAMEWORK_ID"

def controlsVariable : String := "COMPLYTIME_INCLUDE_CONTROLS"

/-- A variable that is set replaces its part of the configuration. -/
def override (lookup : String → Option String) (c : ScopeConfig) : ScopeConfig where
  framework := (lookup frameworkVariable).getD c.framework
  controls := match lookup controlsVariable with
    | some list => distinct (commaSeparated list)
    | none => c.controls

end ScopeConfig
end AssessmentPlans
