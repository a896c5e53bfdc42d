import AssessmentPlans.Scope.Report

/-! Tailoring a plan in place while an observer is told of each step. The walk takes
the branches in document order and the selections of a branch one by one; what
happens to the plan does not depend on who observes. -/
namespace AssessmentPlans

/-- What is done with the events of a tailoring, over a state of its own. -/
structure Observer (σ : Type) where
  notice : σ → ScopeEvent → σ := fun s _ => s

namespace Observer

variable {σ τ : Type}

def idle : Observer Unit := {}

def logging : Observer (List LogLine) where
  notice lines e := lines ++ [e.logLine]

/-- Collects the report of the tailoring. -/
def reporting : Observer Report where
  notice r e := ⟨r.entries ++ e.entry?.toList, r.skipped ++ e.skipped?.toList⟩

/-- Two observers of the same walk. -/
def both (o : Observer σ) (o' : Observer τ) : Observer (σ × τ) where
  notice s e := (o.notice s.1 e, o'.notice s.2 e)

def tell (o : Observer σ) (e : ScopeEvent) : StateM σ Unit := modify (o.notice · e)

end Observer

def Report.blank : Report := ⟨[], []⟩

section Walk

variable {σ : Type} (o : Observer σ) (scope : IdSet)

/-- Narrows selections one by one, those from a number of their place on. -/
def narrowInTurn (branch : Branch) : Nat → List Selection → StateM σ (List Selection)
  | _, [] => return []
  | index, s :: ss => do
    o.tell (.narrowed ⟨branch, index⟩ (s.outcome scope))
    return s.narrow scope :: (← narrowInTurn branch (index + 1) ss)

/-- Narrows the selections of a branch and drops those without controls. Tells in the
end whether it had selections and lost them all. -/
def Review.walk (branch : Branch) (r : Review) : StateM σ (Review × Bool) := do
  if r.selections.isEmpty then
    return (r, false)
  let narrowed ← narrowInTurn o scope branch 0 r.selections
  let kept := narrowed.filter (·.selectsAny)
  return ({ r with selections := kept }, kept.isEmpty)

def walkBranch (branch : Branch) (review : Option Review) (props : Option (List Property)) :
    StateM σ (Option Review × Option (List Property)) :=
  match review with
  | none => return (none, props)
  | some r => do
    let (r, emptied) ← r.walk o scope branch
    if emptied then
      o.tell (.skipped branch)
      return (none, Property.markSkipped props)
    else
      return (some r, props)

def Step.walk (owner : String) (s : Step) : StateM σ Step := do
  let (reviewed, props) ← walkBranch o scope (.step owner s.uuid) s.reviewed s.props
  return { s with reviewed, props }

def Activity.walk (a : Activity) : StateM σ Activity := do
  let (related, props) ← walkBranch o scope (.activity a.uuid) a.related a.props
  match a.steps with
  | none => return { a with related, props, steps := none }
  | some steps =>
    let steps ← steps.mapM (·.walk o scope a.uuid)
    return { a with related, props, steps := some steps }

def LocalDefinitions.walk (d : LocalDefinitions) : StateM σ LocalDefinitions :=
  match d.activities with
  | none => return d
  | some activities => do
    let activities ← activities.mapM (·.walk o scope)
    return { d with activities := some activities }

def Plan.walk (p : Plan) : StateM σ Plan := do
  let definitions ← match p.definitions with
    | none => pure none
    | some d => some <$> d.walk o scope
  let selections ← narrowInTurn o scope .top 0 p.reviewed.selections
  return { p with definitions, reviewed := { p.reviewed with selections } }

end Walk
end AssessmentPlans
