import AssessmentPlans.Scope.Selection

/-! Tailoring a plan to a scope: every selection of the plan is narrowed. On the
branches of activities and steps a selection left without controls is dropped,
and a branch that loses all of its selections is removed and marked as skipped.
At the top selections are narrowed and nothing else. -/
namespace AssessmentPlans

/-- A place of a plan that holds selections. -/
inductive Branch where
  | activity (uuid : String)
  | step (owner uuid : String)
  | top
  deriving DecidableEq

/-- One selection of a plan, by its place and its number there. -/
structure Location where
  branch : Branch
  index : Nat
  deriving DecidableEq

/-- What happens while a plan is tailored, in document order. -/
inductive ScopeEvent where
  | narrowed (location : Location) (outcome : Outcome)
  | skipped (branch : Branch)

/-- The selections of a review that keep a control, narrowed. -/
def Review.surviving (scope : IdSet) (r : Review) : List Selection :=
  (r.selections.map (·.narrow scope)).filter (·.selectsAny)

/-- Whether a branch had selections and loses them all. -/
def Review.vanishes (scope : IdSet) (r : Review) : Bool :=
  !r.selections.isEmpty && (r.surviving scope).isEmpty

/-- The review of a branch that stays. -/
def Review.prune (scope : IdSet) (r : Review) : Review :=
  { r with selections := r.surviving scope }

/-- What becomes of the review of a branch, and of its owner's properties. -/
def tailorBranch (scope : IdSet) (review : Option Review) (props : Option (List Property)) :
    Option Review × Option (List Property) :=
  match review with
  | none => (none, props)
  | some r =>
    if r.vanishes scope then (none, Property.markSkipped props) else (some (r.prune scope), props)

def Step.tailor (scope : IdSet) (s : Step) : Step :=
  let (reviewed, props) := tailorBranch scope s.reviewed s.props
  { s with reviewed, props }

def Activity.tailor (scope : IdSet) (a : Activity) : Activity :=
  let (related, props) := tailorBranch scope a.related a.props
  { a with related, props, steps := a.steps.map (·.map (·.tailor scope)) }

/-- Narrows the selections at the top of a plan. -/
def Review.narrow (scope : IdSet) (r : Review) : Review :=
  { r with selections := r.selections.map (·.narrow scope) }

/-- The plan with nothing but controls in scope. -/
def Plan.tailor (scope : IdSet) (p : Plan) : Plan :=
  { p with
    definitions := p.definitions.map fun d =>
      { d with activities := d.activities.map (·.map (·.tailor scope)) }
    reviewed := p.reviewed.narrow scope }

/-- One event for each selection of a place, in order. -/
def narrowedEvents (scope : IdSet) (branch : Branch) (selections : List Selection) :
    List ScopeEvent :=
  selections.mapIdx fun index s => .narrowed ⟨branch, index⟩ (s.outcome scope)

def branchEvents (scope : IdSet) (branch : Branch) (review : Option Review) : List ScopeEvent :=
  match review with
  | none => []
  | some r =>
    narrowedEvents scope branch r.selections ++
      if r.vanishes scope then [.skipped branch] else []

def Step.events (scope : IdSet) (owner : String) (s : Step) : List ScopeEvent :=
  branchEvents scope (.step owner s.uuid) s.reviewed

def Activity.events (scope : IdSet) (a : Activity) : List ScopeEvent :=
  branchEvents scope (.activity a.uuid) a.related ++
    a.stepList.flatMap (·.events scope a.uuid)

/-- Everything that happens while a plan is tailored. -/
def Plan.events (scope : IdSet) (p : Plan) : List ScopeEvent :=
  p.activities.flatMap (·.events scope) ++ narrowedEvents scope .top p.reviewed.selections

end AssessmentPlans
