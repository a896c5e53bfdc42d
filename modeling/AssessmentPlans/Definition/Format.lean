import AssessmentPlans.Definition.Basic
import AssessmentPlans.Json.Printer

/-! The written form of component definitions. -/
namespace AssessmentPlans
open Json (Value Shape Fields optionalMember)

namespace Requirement

def fields : Fields := .ofList [
  ("uuid", .required, .anyText),
  ("control-id", .required, .anyText),
  ("description", .filled (.text ""), .anyText),
  ("props", .optional, .list Property.shape)]

def shape : Shape := .record "ImplementedRequirement" .opened fields

def ofValue (v : Value) : Requirement where
  uuid := v.getText "uuid"
  controlId := v.getText "control-id"
  description := v.getText "description"
  props := propsOf v
  others := v.besides fields.names

def toValue (r : Requirement) : Value :=
  .object (("uuid", .text r.uuid) :: ("control-id", .text r.controlId) ::
    ("description", .text r.description) :: propsMember r.props ++ r.others)

end Requirement

namespace Implementation

def fields : Fields := .ofList [
  ("uuid", .required, .anyText),
  ("source", .required, .anyText),
  ("description", .filled (.text ""), .anyText),
  ("props", .optional, .list Property.shape),
  ("implemented-requirements", .filled (.array []), .list Requirement.shape)]

def shape : Shape := .record "ControlImplementation" .opened fields

def ofValue (v : Value) : Implementation where
  uuid := v.getText "uuid"
  source := v.getText "source"
  description := v.getText "description"
  props := propsOf v
  requirements := (v.getItems "implemented-requirements").map Requirement.ofValue
  others := v.besides fields.names

def toValue (i : Implementation) : Value :=
  .object (("uuid", .text i.uuid) :: ("source", .text i.source) ::
    ("description", .text i.description) :: propsMember i.props ++
    ("implemented-requirements", .array (i.requirements.map Requirement.toValue)) :: i.others)

end Implementation

namespace Component

def fields : Fields := .ofList [
  ("uuid", .required, .anyText),
  ("type", .required, .anyText),
  ("title", .required, .anyText),
  ("description", .filled (.text ""), .anyText),
  ("props", .optional, .list Property.shape),
  ("control-implementations", .optional, .list Implementation.shape)]

def shape : Shape := .record "DefinedComponent" .opened fields

def ofValue (v : Value) : Component where
  uuid := v.getText "uuid"
  kind := v.getText "type"
  title := v.getText "title"
  description := v.getText "description"
  props := propsOf v
  implementations := (v.getItems? "control-implementations").map (·.map Implementation.ofValue)
  others := v.besides fields.names

def toValue (c : Component) : Value :=
  .object (("uuid", .text c.uuid) :: ("type", .text c.kind) :: ("title", .text c.title) ::
    ("description", .text c.description) :: propsMember c.props ++
    optionalMember "control-implementations"
      (c.implementations.map fun is => .array (is.map Implementation.toValue)) ++ c.others)

end Component

namespace Definition

def fields : Fields := .ofList [
  ("uuid", .required, .anyText),
  ("metadata", .required, Metadata.shape),
  ("components", .optional, .list Component.shape)]

def shape : Shape := .record "ComponentDefinition" .opened fields

/-- A definition stands alone in an object of its own. -/
def documentShape : Shape :=
  .record "ComponentDefinitionDocument" .closed
    (.ofList [("component-definition", .required, shape)])

def ofValue (v : Value) : Definition where
  uuid := v.getText "uuid"
  metadata := Metadata.ofValue ((v.get? "metadata").getD .null)
  components := (v.getItems? "components").map (·.map Component.ofValue)
  others := v.besides fields.names

def toValue (d : Definition) : Value :=
  .object (("uuid", .text d.uuid) :: ("metadata", d.metadata.toValue) ::
    optionalMember "components" (d.components.map fun cs => .array (cs.map Component.toValue)) ++
    d.others)

def ofDocument (v : Value) : Definition := ofValue ((v.get? "component-definition").getD .null)

end Definition
end AssessmentPlans
