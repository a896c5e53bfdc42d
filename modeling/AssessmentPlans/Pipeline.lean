import AssessmentPlans.Plan.Synthesis
import AssessmentPlans.Plan.Validity

/-! Synthesis, tailoring and validation in one run. -/
namespace AssessmentPlans

/-- What a run tells apart from its result: warnings in the order in which they
are logged, and the report of the tailoring. -/
structure Account where
  warnings : List String
  report : Report

def Account.none : Account := ⟨[], ⟨[], []⟩⟩

/-- Tailors a plan to a scope and validates what is left. The warnings of the
validation are logged even if it fails. -/
def tailorPlan (scope : Scope) (p : Plan) : Plan × Account × Except PlanFault Issues :=
  let tailored := p.tailor scope.controls
  (tailored, ⟨tailored.issues.warnings.map (·.text), p.report scope.controls⟩, tailored.validate)

/-- What is logged about a scope for a plan of another framework. -/
def strayWarnings (framework : String) (scope : Scope) : List String :=
  if scope.framework = framework then []
  else ["Scope targets framework '" ++ scope.framework ++ "' but the plan is for '" ++
    framework ++ "'"]

/-- Builds the plan for a framework, and tailors it to a scope if there is one.
The plan is validated after each of the two. -/
def runPipeline (framework : String) (ds : List Definition) (scope : Option Scope)
    (ids : Nat → String) (now : String) : Account × Except PlanFault Plan :=
  match Plan.synthesize framework ds ids now with
  | .error fault => (.none, .error fault)
  | .ok plan =>
    let found := plan.issues.warnings.map (·.text)
    match plan.issues.verdict, scope with
    | .error fault, _ => (⟨found, ⟨[], []⟩⟩, .error fault)
    | .ok (), none => (⟨found, ⟨[], []⟩⟩, .ok plan)
    | .ok (), some scope =>
      let (tailored, account, result) := tailorPlan scope plan
      (⟨found ++ strayWarnings framework scope ++ account.warnings, account.report⟩,
        result.map fun _ => tailored)

end AssessmentPlans
