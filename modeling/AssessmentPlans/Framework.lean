import AssessmentPlans.Config.Basic
import AssessmentPlans.Json.Value
import AssessmentPlans.Plan.Synthesis

/-! The frameworks that component definitions implement, and the configuration to start from with
one of them: every control of it. -/
namespace AssessmentPlans
open Json (Value)

/-- A framework as far as it is known: which controls are implemented, and by which
components. -/
structure FrameworkEntry where
  id : String
  controls : IdSet
  components : List String

def FrameworkEntry.blank (id : String) : FrameworkEntry := ⟨id, .empty, []⟩

/-- Takes in one more implementation, by a component of the given title. -/
def FrameworkEntry.add (title : String) (i : Implementation) (e : FrameworkEntry) :
    FrameworkEntry where
  id := e.id
  controls := ((i.requirements.map (·.controlId)).filter (· ≠ "")).foldl
    (fun controls id => controls.insert id) e.controls
  components := addNew e.components title

/-- Takes an implementation into the entry of its framework. Entries ascend, and a framework
that is new is put in its place. -/
def takeIn (title : String) (i : Implementation) : List FrameworkEntry → List FrameworkEntry
  | [] => [(FrameworkEntry.blank i.frameworkId).add title i]
  | e :: es =>
    if i.frameworkId < e.id then (FrameworkEntry.blank i.frameworkId).add title i :: e :: es
    else if i.frameworkId = e.id then e.add title i :: es
    else e :: takeIn title i es

/-- Goes through the implementations, component by component. -/
def frameworkEntries (ds : List Definition) : List FrameworkEntry :=
  (componentsOf ds).foldl
    (fun es c => c.implementationList.foldl (fun es i => takeIn c.title i es) es) []

/-- A framework: how many controls are implemented, and by which components. -/
structure FrameworkSummary where
  id : String
  controls : Nat
  components : List String
  deriving DecidableEq

def FrameworkEntry.summary (e : FrameworkEntry) : FrameworkSummary :=
  ⟨e.id, e.controls.size, e.components⟩

def availableFrameworks (ds : List Definition) : List FrameworkSummary :=
  (frameworkEntries ds).map (·.summary)

def FrameworkSummary.toValue (s : FrameworkSummary) : Value :=
  .object [("framework_id", .text s.id), ("controls", .natural s.controls),
    ("components", .array (s.components.map .text))]

/-- The control of one more requirement, unless it is listed or has no name. -/
def listControl (controls : List String) (r : Requirement) : List String :=
  if r.controlId ≠ "" ∧ r.controlId ∉ controls then controls ++ [r.controlId] else controls

def ScopeConfig.template (framework : String) (ds : List Definition) :
    Except PlanFault ScopeConfig :=
  match frameworkFault? framework ds with
  | some fault => .error fault
  | none => .ok ⟨framework, (requirementsFor framework ds).foldl listControl []⟩

end AssessmentPlans
