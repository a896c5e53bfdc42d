import AssessmentPlans.Proofs.Plan.Rules

/-! Definitions with other requirements. What components declare and which framework they implement
stays as it is, so plans and configurations see no more of the change than the requirements of
their framework. -/
namespace AssessmentPlans

/-! Each implementation is given its requirements anew. -/

def Implementation.require (f : Implementation → List Requirement) (i : Implementation) :
    Implementation :=
  { i with requirements := f i }

def Component.require (f : Implementation → List Requirement) (c : Component) : Component :=
  { c with implementations := c.implementations.map (·.map (·.require f)) }

def Definition.require (f : Implementation → List Requirement) (d : Definition) : Definition :=
  { d with components := d.components.map (·.map (·.require f)) }

def requireAll (f : Implementation → List Requirement) (ds : List Definition) : List Definition :=
  ds.map (·.require f)

variable {f : Implementation → List Requirement} {framework rule : String} {ds : List Definition}

theorem componentsOf_require :
    componentsOf (requireAll f ds) = (componentsOf ds).map (·.require f) := by
  have part : ∀ d : Definition, (d.require f).componentList = d.componentList.map (·.require f) := by
    intro d
    unfold Definition.componentList Definition.require
    cases d.components <;> rfl
  simp only [componentsOf, requireAll, List.flatMap_map, List.map_flatMap, part]

theorem implementationsFor_require : implementationsFor framework (requireAll f ds) =
    (implementationsFor framework ds).map (·.require f) := by
  have part : ∀ c : Component, (c.require f).implementationList =
      c.implementationList.map (·.require f) := by
    intro c
    unfold Component.implementationList Component.require
    cases c.implementations <;> rfl
  simp only [implementationsFor, componentsOf_require, List.flatMap_map, part, ← List.map_flatMap,
    List.filter_map]
  rfl

/-- Rules and checks are declared by components, whatever they implement. -/
theorem ruleEntry_require : ruleEntry (requireAll f ds) rule = ruleEntry ds rule := by
  rw [ruleEntry, ruleIndex, componentsOf_require, List.flatMap_map]
  rfl

theorem frameworkFault?_require :
    frameworkFault? framework (requireAll f ds) = frameworkFault? framework ds := by
  rw [frameworkFault?, implementationsFor_require, List.isEmpty_map, requireAll, List.isEmpty_map]
  rfl

end AssessmentPlans
