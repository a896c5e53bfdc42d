import AssessmentPlans.Fault
import AssessmentPlans.Scope.Report
import AssessmentPlans.Text.Pieces
import AssessmentPlans.Uuid

/-! Structural rules of plans. Identifiers are well formed and titles not blank,
every selection on a branch selects something, exceptions stand beside included
controls, and a skipped branch selects nothing. -/
namespace AssessmentPlans
open Json (Value)

inductive Severity where
  | error
  | warning
  deriving DecidableEq

/-- The part of a plan that a finding is about. -/
inductive Place where
  | planUuid
  | planTitle
  | activity (uuid : String)
  | step (owner uuid : String)
  | branch (branch : Branch)
  | selection (location : Location)
  deriving DecidableEq

inductive Defect where
  | notUuid (text : String)
  | blankTitle
  | skippedButSelecting
  | noSelections
  | blankControl
  | exceptionsAlone
  | selectsNothing
  deriving DecidableEq

structure Finding where
  severity : Severity
  place : Place
  defect : Defect
  deriving DecidableEq

def Place.text : Place → String
  | .planUuid => "assessment-plan/uuid"
  | .planTitle => "assessment-plan/metadata/title"
  | .activity uuid => "activity " ++ uuid
  | .step owner uuid => "activity " ++ owner ++ "/step " ++ uuid
  | .branch b => b.text
  | .selection l => l.text

def Defect.message : Defect → String
  | .notUuid text => "'" ++ text ++ "' is not a valid UUID"
  | .blankTitle => "title cannot be empty"
  | .skippedButSelecting => "skipped branch still references controls"
  | .noSelections => "no control selections"
  | .blankControl => "control-id cannot be empty"
  | .exceptionsAlone => "exclude-controls must be within a range of included controls"
  | .selectsNothing => "selection includes no controls"

def uuidFindings (place : Place) (uuid : String) : List Finding :=
  if Uuid.isValid uuid then [] else [⟨.error, place, .notUuid uuid⟩]

/-- Findings about one selection. At the top of a plan, which a scope may leave
without controls, an empty selection is only a warning. -/
def Selection.findings (location : Location) (s : Selection) : List Finding :=
  let severity := if location.branch = .top then Severity.warning else .error
  let blanks := (s.includedRefs ++ s.excludedRefs).filter fun c => Text.Blank c.id
  blanks.map (fun _ => ⟨.error, .selection location, .blankControl⟩) ++
    (if s.selectsAny then [] else
      (if s.excludedRefs.isEmpty then []
        else [⟨severity, .selection location, .exceptionsAlone⟩]) ++
      [⟨severity, .selection location, .selectsNothing⟩])

def selectionFindings (branch : Branch) (selections : List Selection) : List Finding :=
  (selections.mapIdx fun index s => s.findings ⟨branch, index⟩).flatten

/-- Findings about the review of a branch, whose owner may be skipped. -/
def branchFindings (branch : Branch) (skipped : Bool) (review : Option Review) : List Finding :=
  match review with
  | none => []
  | some r =>
    (if skipped then [⟨.error, .branch branch, .skippedButSelecting⟩] else []) ++
    (if r.selections.isEmpty then [⟨.warning, .branch branch, .noSelections⟩] else []) ++
    selectionFindings branch r.selections

def Step.findings (owner : String) (s : Step) : List Finding :=
  uuidFindings (.step owner s.uuid) s.uuid ++
    branchFindings (.step owner s.uuid) (Property.isSkipped s.props) s.reviewed

def Activity.findings (a : Activity) : List Finding :=
  uuidFindings (.activity a.uuid) a.uuid ++
    branchFindings (.activity a.uuid) (Property.isSkipped a.props) a.related ++
    a.stepList.flatMap (·.findings a.uuid)

/-- All findings about a plan, in document order. -/
def Plan.findings (p : Plan) : List Finding :=
  uuidFindings .planUuid p.uuid ++
    (if Text.Blank p.metadata.title then [⟨.error, .planTitle, .blankTitle⟩] else []) ++
    p.activities.flatMap (·.findings) ++
    selectionFindings .top p.reviewed.selections

/-- A finding as it is reported. -/
structure Issue where
  path : String
  message : String
  deriving DecidableEq

def Issue.text (i : Issue) : String := i.path ++ ": " ++ i.message

def Finding.issue (f : Finding) : Issue := ⟨f.place.text, f.defect.message⟩

structure Issues where
  errors : List Issue
  warnings : List Issue
  deriving DecidableEq

def issuesOf (severity : Severity) (findings : List Finding) : List Issue :=
  (findings.filter (·.severity = severity)).map (·.issue)

def Issues.ofFindings (findings : List Finding) : Issues :=
  ⟨issuesOf .error findings, issuesOf .warning findings⟩

def Plan.issues (p : Plan) : Issues := .ofFindings p.findings

/-- The first error makes a plan invalid. -/
def Issues.verdict (is : Issues) : Except PlanFault Unit :=
  match is.errors with
  | [] => .ok ()
  | first :: _ => .error (.invalid first.message first.path)

/-- The issues of a valid plan. -/
def Plan.validate (p : Plan) : Except PlanFault Issues := do
  p.issues.verdict
  return p.issues

def Issue.toValue (i : Issue) : Value :=
  .object [("path", .text i.path), ("message", .text i.message)]

def Issues.toValue (is : Issues) : Value :=
  .object [("errors", .array (is.errors.map Issue.toValue)),
    ("warnings", .array (is.warnings.map Issue.toValue))]

end AssessmentPlans
