import AssessmentPlans.IdSet
import AssessmentPlans.Distinct
import AssessmentPlans.Plan.Basic

/-! Narrowing one selection to the controls in scope, and what is told of it. -/
namespace AssessmentPlans

/-- The controls that a plan is to keep, and the framework they belong to. -/
structure Scope where
  framework : String
  controls : IdSet

/-- What narrowing did to one selection: how many controls it listed before,
whether it included all, and which controls it lists now. -/
structure Outcome where
  before : Nat
  hadAll : Bool
  included : List String
  deriving DecidableEq

def Outcome.becameEmpty (o : Outcome) : Bool := o.included.isEmpty

namespace Selection

/-- What is left of a selection. All controls become those in scope, since the
catalogue is not at hand; a list keeps the first entry of each control in scope. -/
def keptRefs (scope : IdSet) (s : Selection) : List ControlRef :=
  if s.includeAll then scope.ids.map ControlRef.whole
  else distinctBy (·.id) (s.includedRefs.filter fun c => c.id ∈ scope)

/-- Narrows a selection to the scope; exceptions stay as they are. -/
def narrow (scope : IdSet) (s : Selection) : Selection :=
  let kept := s.keptRefs scope
  { s with includeAll := false, includes := if kept.isEmpty then none else some kept }

def outcome (scope : IdSet) (s : Selection) : Outcome where
  before := s.includedRefs.length
  hadAll := s.includeAll
  included := (s.keptRefs scope).map (·.id)

end Selection
end AssessmentPlans
