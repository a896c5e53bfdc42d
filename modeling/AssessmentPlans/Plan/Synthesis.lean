import AssessmentPlans.Definition.Basic
import AssessmentPlans.Distinct
import AssessmentPlans.Fault
import AssessmentPlans.IdSet
import AssessmentPlans.Plan.Basic

/-! Building a plan from component definitions. The controls of a framework are
those of its requirements, and the rules that the requirements name become
activities with the checks of the rule as steps.

Properties of one component with the same remarks form a group. A group belongs
to the rule that it names first; it declares a check if it names one, and else
describes the rule. -/
namespace AssessmentPlans

/-- The first value of a name within a group, whatever its namespace. -/
def firstValue? (name : String) (group : List Property) : Option String :=
  (group.find? (·.name == name)).map (·.value)

/-- Adds a property to the group of a key. Groups are in ascending order of their keys. -/
def addToGroup (key : String) (p : Property) :
    List (String × List Property) → List (String × List Property)
  | [] => [(key, [p])]
  | (other, group) :: groups =>
    if key < other then (key, [p]) :: (other, group) :: groups
    else if key = other then (other, group ++ [p]) :: groups
    else (other, group) :: addToGroup key p groups

/-- Puts a property with the others that have its remarks; without any it is in no group. -/
def Property.file (groups : List (String × List Property)) (p : Property) :
    List (String × List Property) :=
  match p.remarks with
  | none => groups
  | some key => addToGroup key p groups

/-- The groups of a component in ascending order of their remarks. -/
def Component.groups (c : Component) : List (List Property) :=
  ((c.props.getD []).foldl Property.file []).map (·.2)

/-- A check of a rule. -/
structure Check where
  id : String
  description : Option String
  deriving DecidableEq

/-- The check that a group declares. -/
def groupCheck? (group : List Property) : Option Check :=
  (firstValue? "Check_Id" group).map fun id => ⟨id, firstValue? "Check_Description" group⟩

/-- What is known of a rule. -/
structure RuleEntry where
  description : Option String
  checks : List Check

namespace RuleEntry

def blank : RuleEntry := ⟨none, []⟩

/-- Takes in one more group of the rule. The first description counts, and of the checks with
one identifier the first. -/
def add (e : RuleEntry) (group : List Property) : RuleEntry :=
  match groupCheck? group with
  | some check =>
    if e.checks.any (·.id == check.id) then e else { e with checks := e.checks ++ [check] }
  | none => { e with description := e.description <|> firstValue? "Rule_Description" group }

end RuleEntry

/-- Changes the entry of a key, which is blank where it is new. New keys come last. -/
def amend {β} (key : String) (blank : β) (change : β → β) : List (String × β) → List (String × β)
  | [] => [(key, change blank)]
  | (other, entry) :: entries =>
    if other = key then (other, change entry) :: entries
    else (other, entry) :: amend key blank change entries

/-- Takes in one more group; one that names no rule counts for nothing. -/
def indexGroup (rules : List (String × RuleEntry)) (group : List Property) :
    List (String × RuleEntry) :=
  match firstValue? "Rule_Id" group with
  | none => rules
  | some rule => amend rule .blank (·.add group) rules

/-- Goes through the groups of all components. -/
def ruleIndex (ds : List Definition) : List (String × RuleEntry) :=
  ((componentsOf ds).flatMap Component.groups).foldl indexGroup []

def ruleEntry (ds : List Definition) (rule : String) : RuleEntry :=
  ((ruleIndex ds).lookup rule).getD .blank

/-- The checks of a rule. -/
def checksOf (ds : List Definition) (rule : String) : List Check := (ruleEntry ds rule).checks

/-- How a rule is described, if it is. -/
def ruleDescription? (ds : List Definition) (rule : String) : Option String :=
  (ruleEntry ds rule).description

/-- The rules that a requirement names, in the order of its properties. -/
def Requirement.rules (r : Requirement) : List String :=
  ((r.props.getD []).filter (·.name == "Rule_Id")).map (·.value)

/-- What the requirements of a framework come to: their controls, each once, and their
rules, each once with the controls that it assesses. -/
structure Collection where
  controls : List String
  rules : List (String × List String)

/-- Links a rule to a control. A rule that is new comes last. -/
def linkRule (control rule : String) (rules : List (String × List String)) :
    List (String × List String) :=
  amend rule [] (addNew · control) rules

/-- Takes in one more requirement; one that names no control counts for nothing. -/
def Collection.add (c : Collection) (r : Requirement) : Collection :=
  if r.controlId = "" then c
  else ⟨addNew c.controls r.controlId,
    r.rules.foldl (fun rules rule => linkRule r.controlId rule rules) c.rules⟩

/-- Goes through the requirements of a framework. -/
def collect (framework : String) (ds : List Definition) : Collection :=
  (requirementsFor framework ds).foldl .add ⟨[], []⟩

def Check.step (uuid : String) (controls : List String) (c : Check) : Step where
  uuid := uuid
  title := some c.id
  description := c.description.getD c.id
  props := some [.plain "Check_Id" c.id]
  reviewed := some (.ofIds controls)
  others := []

/-- The steps of a rule, one for each check that it has. -/
def ruleSteps (ds : List Definition) (ids : Nat → String) (rule : String)
    (controls : List String) : Option (List Step) :=
  let steps := (checksOf ds rule).mapIdx fun n c => c.step (ids n) controls
  if steps.isEmpty then none else some steps

/-- The activity of a rule with the controls that it assesses. Its own identifier comes
first in the supply, and then those of its steps. -/
def ruleActivity (ds : List Definition) (ids : Nat → String) (rule : String)
    (controls : List String) : Activity where
  uuid := ids 0
  title := some rule
  description := (ruleDescription? ds rule).getD rule
  props := some [.plain "Rule_Id" rule]
  steps := ruleSteps ds (fun n => ids (n + 1)) rule controls
  related := some (.ofIds controls)
  others := []

/-- The activities of rules, with fresh identifiers in document order. -/
def ruleActivities (ds : List Definition) (ids : Nat → String) :
    List (String × List String) → List Activity
  | [] => []
  | (rule, controls) :: rules =>
    ruleActivity ds ids rule controls ::
      ruleActivities ds (fun n => ids (n + 1 + (checksOf ds rule).length)) rules

/-- What keeps a framework from being planned. -/
def frameworkFault? (framework : String) (ds : List Definition) : Option PlanFault :=
  if ds.isEmpty then some (.noDefinitions "<input>")
  else if (implementationsFor framework ds).isEmpty then some (.unknownFramework framework)
  else none

/-- The plan for a framework with all of its controls. The supply of fresh
identifiers is used in document order, the plan's own first. -/
def Plan.synthesize (framework : String) (ds : List Definition) (ids : Nat → String)
    (now : String) : Except PlanFault Plan :=
  match frameworkFault? framework ds with
  | some fault => .error fault
  | none =>
    let collection := collect framework ds
    let activities := ruleActivities ds (fun n => ids (n + 1)) collection.rules
    .ok {
      uuid := ids 0
      metadata := ⟨"Assessment Plan for " ++ framework, now, "0.1.0", "1.1.3", []⟩
      systemPlan := ⟨"NOT_PROVIDED", []⟩
      definitions := if activities.isEmpty then none else some ⟨some activities, []⟩
      reviewed := .ofIds collection.controls
      others := [] }

/-- How many fresh identifiers the plan for a framework takes. -/
def freshIdCount (framework : String) (ds : List Definition) : Nat :=
  match frameworkFault? framework ds with
  | some _ => 0
  | none => (collect framework ds).rules.foldl (fun n rule => n + 1 + (checksOf ds rule.1).length) 1

end AssessmentPlans
