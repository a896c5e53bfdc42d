import AssessmentPlans.Property
import AssessmentPlans.Metadata

/-! Assessment plans. A plan selects controls at three places: in the related
controls of each activity, in the reviewed controls of each step, and at the top.
Members that are no fields are carried along as they were read. -/
namespace AssessmentPlans
open Json (Value)

/-- A control by its identifier, whole or by some of its statements. -/
structure ControlRef where
  id : String
  statements : Option (List String)
  deriving DecidableEq

def ControlRef.whole (id : String) : ControlRef := ⟨id, none⟩

/-- A selection of controls: all of them or a list, and a list of exceptions. -/
structure Selection where
  description : Option String
  props : Option (List Property)
  includeAll : Bool
  includes : Option (List ControlRef)
  excludes : Option (List ControlRef)
  others : List (String × Value)

namespace Selection

/-- Selects exactly the given controls. -/
def ofIds (ids : List String) : Selection :=
  ⟨none, none, false, some (ids.map ControlRef.whole), none, []⟩

def includedRefs (s : Selection) : List ControlRef := s.includes.getD []

def excludedRefs (s : Selection) : List ControlRef := s.excludes.getD []

def includedIds (s : Selection) : List String := s.includedRefs.map (·.id)

/-- Whether at least one control is included, exceptions aside. -/
def selectsAny (s : Selection) : Bool := s.includeAll || !s.includedRefs.isEmpty

end Selection

/-- The selections of one place, with a description of their own. -/
structure Review where
  description : Option String
  props : Option (List Property)
  selections : List Selection
  others : List (String × Value)

/-- A review of exactly the given controls. -/
def Review.ofIds (ids : List String) : Review := ⟨none, none, [.ofIds ids], []⟩

structure Step where
  uuid : String
  title : Option String
  description : String
  props : Option (List Property)
  reviewed : Option Review
  others : List (String × Value)

structure Activity where
  uuid : String
  title : Option String
  description : String
  props : Option (List Property)
  steps : Option (List Step)
  related : Option Review
  others : List (String × Value)

def Activity.stepList (a : Activity) : List Step := a.steps.getD []

/-- What a plan defines for itself. -/
structure LocalDefinitions where
  activities : Option (List Activity)
  others : List (String × Value)

/-- The system security plan that a plan refers to. -/
structure SystemPlan where
  href : String
  others : List (String × Value)

structure Plan where
  uuid : String
  metadata : Metadata
  systemPlan : SystemPlan
  definitions : Option LocalDefinitions
  reviewed : Review
  others : List (String × Value)

def Plan.activities (p : Plan) : List Activity :=
  (p.definitions.bind (·.activities)).getD []

end AssessmentPlans
