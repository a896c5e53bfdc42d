import AssessmentPlans.Scope.Tailoring
import AssessmentPlans.Json.Printer

/-! The report of a tailoring: the outcome for each selection and the branches
that were skipped. -/
namespace AssessmentPlans
open Json (Value)

def Branch.text : Branch → String
  | .activity uuid => "activity " ++ uuid ++ "/related-controls"
  | .step owner uuid => "activity " ++ owner ++ "/step " ++ uuid ++ "/reviewed-controls"
  | .top => "reviewed-controls"

def Location.text (l : Location) : String :=
  l.branch.text ++ "/control-selections[" ++ toString l.index ++ "]"

/-- One selection of the tailored plan. The count before is missing where all
controls were included. -/
structure ReportEntry where
  location : Location
  before : Option Nat
  included : List String
  deriving DecidableEq

structure Report where
  entries : List ReportEntry
  skipped : List Branch
  deriving DecidableEq

def ScopeEvent.entry? : ScopeEvent → Option ReportEntry
  | .narrowed location o => some ⟨location, if o.hadAll then none else some o.before, o.included⟩
  | .skipped _ => none

def ScopeEvent.skipped? : ScopeEvent → Option Branch
  | .narrowed _ _ => none
  | .skipped branch => some branch

namespace Report

def ofEvents (events : List ScopeEvent) : Report :=
  ⟨events.filterMap ScopeEvent.entry?, events.filterMap ScopeEvent.skipped?⟩

def visited (r : Report) : Nat := r.entries.length

/-- How many selections are left without controls. -/
def emptied (r : Report) : Nat := (r.entries.filter (·.included.isEmpty)).length

/-- The controls that are still selected somewhere. -/
def retained (r : Report) : IdSet := .ofList (r.entries.flatMap (·.included))

end Report

/-- The report of tailoring a plan to a scope. -/
def Plan.report (scope : IdSet) (p : Plan) : Report := .ofEvents (p.events scope)

def Branch.toValue : Branch → Value
  | .activity uuid => .object [("kind", .text "activity"), ("activity", .text uuid)]
  | .step owner uuid =>
    .object [("kind", .text "step"), ("activity", .text owner), ("step", .text uuid)]
  | .top => .object [("kind", .text "plan")]

def Location.toValue (l : Location) : Value :=
  .object [("branch", l.branch.toValue), ("index", .natural l.index)]

def ReportEntry.toValue (e : ReportEntry) : Value :=
  .object [("location", e.location.toValue), ("before", (e.before.map Value.natural).getD .null),
    ("included", .array (e.included.map .text))]

def Report.toValue (r : Report) : Value :=
  .object [("entries", .array (r.entries.map ReportEntry.toValue)),
    ("skipped", .array (r.skipped.map Branch.toValue))]

/-- How much a log line matters. -/
inductive LogLevel where
  | debug
  | info
  deriving DecidableEq

/-- A line of the log: a message and the details that go with it. -/
structure LogLine where
  level : LogLevel
  message : String
  details : List (String × String)

/-- The line that an event leaves in the log. -/
def ScopeEvent.logLine : ScopeEvent → LogLine
  | .narrowed location o =>
    ⟨.debug, "Filtered control selection",
      [("location", location.text), ("include_all", toString o.hadAll),
        ("before", toString o.before), ("after", toString o.included.length)]⟩
  | .skipped branch => ⟨.info, "No controls in scope for " ++ branch.text ++ ", marked skipped", []⟩

end AssessmentPlans
