import Mathlib.Tactic.MkIffOfInductiveProp
import AssessmentPlans.Plan.Basic
import AssessmentPlans.Plan.Format

/-! Rules for the members of a plan that are no fields, in whichever of its parts they
stand. A rule may depend on the room for containers there and on the names of the fields. -/
namespace AssessmentPlans
open Json (Value)

section Every

variable (R : Nat → List String → List (String × Value) → Prop) (room : Nat)

/-- The rule holds for the members that are no fields; `room` is what is left for members. -/
def Property.Every (p : Property) : Prop := R room fields.names p.others

/-- A list of properties takes two containers of the room for it. -/
def EveryProps (props : Option (List Property)) : Prop :=
  ∀ ps, props = some ps → ∀ p ∈ ps, p.Every R (room - 2)

def Metadata.Every (m : Metadata) : Prop := R room fields.names m.others

def SystemPlan.Every (s : SystemPlan) : Prop := R room fields.names s.others

@[mk_iff every_iff]
structure Selection.Every (s : Selection) : Prop where
  props : EveryProps R room s.props
  others : R room fields.names s.others

@[mk_iff every_iff]
structure Review.Every (r : Review) : Prop where
  props : EveryProps R room r.props
  selections : ∀ s ∈ r.selections, s.Every R (room - 2)
  others : R room fields.names r.others

@[mk_iff every_iff]
structure Step.Every (s : Step) : Prop where
  props : EveryProps R room s.props
  reviewed : ∀ r, s.reviewed = some r → r.Every R (room - 1)
  others : R room fields.names s.others

@[mk_iff every_iff]
structure Activity.Every (a : Activity) : Prop where
  props : EveryProps R room a.props
  steps : ∀ ss, a.steps = some ss → ∀ s ∈ ss, s.Every R (room - 2)
  related : ∀ r, a.related = some r → r.Every R (room - 1)
  others : R room fields.names a.others

@[mk_iff every_iff]
structure LocalDefinitions.Every (l : LocalDefinitions) : Prop where
  activities : ∀ as, l.activities = some as → ∀ a ∈ as, a.Every R (room - 2)
  others : R room fields.names l.others

@[mk_iff every_iff]
structure Plan.Every (p : Plan) : Prop where
  metadata : p.metadata.Every R (room - 1)
  systemPlan : p.systemPlan.Every R (room - 1)
  definitions : ∀ l, p.definitions = some l → l.Every R (room - 1)
  reviewed : p.reviewed.Every R (room - 1)
  others : R room fields.names p.others

end Every
end AssessmentPlans
