import AssessmentPlans.Plan.Basic
import AssessmentPlans.Json.Printer

/-! The written form of plans. Each part has a shape by which it is read, and a
value that writes its fields in the order of the shape and the rest after them. -/
namespace AssessmentPlans
open Json (Value Shape Fields optionalMember)

/-- The optional text of a part, as a member of its object. -/
def textMember (key : String) (text : Option String) : List (String × Value) :=
  optionalMember key (text.map .text)

namespace ControlRef

def fields : Fields := .ofList [
  ("control-id", .required, .anyText),
  ("statement-ids", .optional, .list .anyText)]

def shape : Shape := .record "SelectControlById" .closed fields

def ofValue (v : Value) : ControlRef where
  id := v.getText "control-id"
  statements := (v.getItems? "statement-ids").map (·.filterMap Value.asText?)

def toValue (c : ControlRef) : Value :=
  .object (("control-id", .text c.id) ::
    optionalMember "statement-ids" (c.statements.map fun ids => .array (ids.map .text)))

end ControlRef

namespace Selection

/-- The mark for all controls: an object without fields. -/
def allShape : Shape := .record "IncludeAll" .closed .nil

def fields : Fields := .ofList [
  ("description", .optional, .anyText),
  ("props", .optional, .list Property.shape),
  ("include-all", .optional, allShape),
  ("include-controls", .optional, .list ControlRef.shape),
  ("exclude-controls", .optional, .list ControlRef.shape)]

def shape : Shape := .record "ControlSelection" .opened fields

def ofValue (v : Value) : Selection where
  description := v.getText? "description"
  props := propsOf v
  includeAll := (v.get? "include-all").isSome
  includes := (v.getItems? "include-controls").map (·.map ControlRef.ofValue)
  excludes := (v.getItems? "exclude-controls").map (·.map ControlRef.ofValue)
  others := v.besides fields.names

def refsMember (key : String) (refs : Option (List ControlRef)) : List (String × Value) :=
  optionalMember key (refs.map fun rs => .array (rs.map ControlRef.toValue))

def toValue (s : Selection) : Value :=
  .object (textMember "description" s.description ++ propsMember s.props ++
    (if s.includeAll then [("include-all", .object [])] else []) ++
    refsMember "include-controls" s.includes ++ refsMember "exclude-controls" s.excludes ++
    s.others)

end Selection

namespace Review

def fields : Fields := .ofList [
  ("description", .optional, .anyText),
  ("props", .optional, .list Property.shape),
  ("control-selections", .filled (.array []), .list Selection.shape)]

def shape : Shape := .record "ReviewedControls" .opened fields

def ofValue (v : Value) : Review where
  description := v.getText? "description"
  props := propsOf v
  selections := (v.getItems "control-selections").map Selection.ofValue
  others := v.besides fields.names

def toValue (r : Review) : Value :=
  .object (textMember "description" r.description ++ propsMember r.props ++
    ("control-selections", .array (r.selections.map Selection.toValue)) :: r.others)

end Review

def reviewMember (key : String) (review : Option Review) : List (String × Value) :=
  optionalMember key (review.map Review.toValue)

namespace Step

def fields : Fields := .ofList [
  ("uuid", .required, .anyText),
  ("title", .optional, .anyText),
  ("description", .filled (.text ""), .anyText),
  ("props", .optional, .list Property.shape),
  ("reviewed-controls", .optional, Review.shape)]

def shape : Shape := .record "Step" .opened fields

def ofValue (v : Value) : Step where
  uuid := v.getText "uuid"
  title := v.getText? "title"
  description := v.getText "description"
  props := propsOf v
  reviewed := (v.get? "reviewed-controls").map Review.ofValue
  others := v.besides fields.names

def toValue (s : Step) : Value :=
  .object (("uuid", .text s.uuid) :: textMember "title" s.title ++
    ("description", .text s.description) :: propsMember s.props ++
    reviewMember "reviewed-controls" s.reviewed ++ s.others)

end Step

namespace Activity

def fields : Fields := .ofList [
  ("uuid", .required, .anyText),
  ("title", .optional, .anyText),
  ("description", .filled (.text ""), .anyText),
  ("props", .optional, .list Property.shape),
  ("steps", .optional, .list Step.shape),
  ("related-controls", .optional, Review.shape)]

def shape : Shape := .record "Activity" .opened fields

def ofValue (v : Value) : Activity where
  uuid := v.getText "uuid"
  title := v.getText? "title"
  description := v.getText "description"
  props := propsOf v
  steps := (v.getItems? "steps").map (·.map Step.ofValue)
  related := (v.get? "related-controls").map Review.ofValue
  others := v.besides fields.names

def toValue (a : Activity) : Value :=
  .object (("uuid", .text a.uuid) :: textMember "title" a.title ++
    ("description", .text a.description) :: propsMember a.props ++
    optionalMember "steps" (a.steps.map fun ss => .array (ss.map Step.toValue)) ++
    reviewMember "related-controls" a.related ++ a.others)

end Activity

namespace LocalDefinitions

def fields : Fields := .ofList [("activities", .optional, .list Activity.shape)]

def shape : Shape := .record "LocalDefinitions" .opened fields

def ofValue (v : Value) : LocalDefinitions where
  activities := (v.getItems? "activities").map (·.map Activity.ofValue)
  others := v.besides fields.names

def toValue (l : LocalDefinitions) : Value :=
  .object (optionalMember "activities"
    (l.activities.map fun as => .array (as.map Activity.toValue)) ++ l.others)

end LocalDefinitions

namespace SystemPlan

def fields : Fields := .ofList [("href", .required, .anyText)]

def shape : Shape := .record "ImportSsp" .opened fields

def ofValue (v : Value) : SystemPlan := ⟨v.getText "href", v.besides fields.names⟩

def toValue (s : SystemPlan) : Value := .object (("href", .text s.href) :: s.others)

end SystemPlan

namespace Plan

def fields : Fields := .ofList [
  ("uuid", .required, .anyText),
  ("metadata", .required, Metadata.shape),
  ("import-ssp", .required, SystemPlan.shape),
  ("local-definitions", .optional, LocalDefinitions.shape),
  ("reviewed-controls", .required, Review.shape)]

def shape : Shape := .record "AssessmentPlan" .opened fields

/-- A plan stands alone in an object of its own. -/
def documentShape : Shape :=
  .record "PlanDocument" .closed (.ofList [("assessment-plan", .required, shape)])

def ofValue (v : Value) : Plan where
  uuid := v.getText "uuid"
  metadata := Metadata.ofValue ((v.get? "metadata").getD .null)
  systemPlan := SystemPlan.ofValue ((v.get? "import-ssp").getD .null)
  definitions := (v.get? "local-definitions").map LocalDefinitions.ofValue
  reviewed := Review.ofValue ((v.get? "reviewed-controls").getD .null)
  others := v.besides fields.names

def toValue (p : Plan) : Value :=
  .object (("uuid", .text p.uuid) :: ("metadata", p.metadata.toValue) ::
    ("import-ssp", p.systemPlan.toValue) ::
    optionalMember "local-definitions" (p.definitions.map LocalDefinitions.toValue) ++
    ("reviewed-controls", p.reviewed.toValue) :: p.others)

def ofDocument (v : Value) : Plan := ofValue ((v.get? "assessment-plan").getD .null)

def toDocument (p : Plan) : Value := .object [("assessment-plan", p.toValue)]

/-- Reads the text of a plan document. -/
def ofText (s : String) : Except Json.Fault Plan := (documentShape.readText s).map ofDocument

/-- Text of a plan document. -/
def text (p : Plan) : String := p.toDocument.pretty

end Plan
end AssessmentPlans
