import AssessmentPlans.Property
import AssessmentPlans.Metadata

/-! Component definitions: which components implement which controls, for which
framework. Rules and checks are written in the properties of components. -/
namespace AssessmentPlans
open Json (Value)

/-- A control that is implemented; its properties name the rules that assess it. -/
structure Requirement where
  uuid : String
  controlId : String
  description : String
  props : Option (List Property)
  others : List (String × Value)

/-- The requirements implemented for one source of controls. -/
structure Implementation where
  uuid : String
  source : String
  description : String
  props : Option (List Property)
  requirements : List Requirement
  others : List (String × Value)

structure Component where
  uuid : String
  kind : String
  title : String
  description : String
  props : Option (List Property)
  implementations : Option (List Implementation)
  others : List (String × Value)

structure Definition where
  uuid : String
  metadata : Metadata
  components : Option (List Component)
  others : List (String × Value)

namespace Implementation

/-- The framework that a property names. -/
def framework? (i : Implementation) : Option String :=
  (Property.find? "Framework_Short_Name" none i.props).map (·.value)

/-- The last segment of a source, up to its first dot. -/
def sourceName (source : String) : String :=
  let segment := (source.toList.reverse.takeWhile (· ≠ '/')).reverse
  String.ofList (segment.takeWhile (· ≠ '.'))

/-- The framework: as a property names it, else after the source. -/
def frameworkId (i : Implementation) : String := i.framework?.getD (sourceName i.source)

end Implementation

def Component.implementationList (c : Component) : List Implementation :=
  c.implementations.getD []

def Definition.componentList (d : Definition) : List Component := d.components.getD []

/-- All components, definition by definition. -/
def componentsOf (ds : List Definition) : List Component := ds.flatMap Definition.componentList

/-- The implementations for a framework, in document order. -/
def implementationsFor (framework : String) (ds : List Definition) : List Implementation :=
  ((componentsOf ds).flatMap Component.implementationList).filter (·.frameworkId == framework)

/-- The requirements of a framework, in document order. -/
def requirementsFor (framework : String) (ds : List Definition) : List Requirement :=
  (implementationsFor framework ds).flatMap (·.requirements)

end AssessmentPlans
