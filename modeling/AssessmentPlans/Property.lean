import AssessmentPlans.Json.Shape

/-! Properties: named values, in a namespace or in none, that documents attach to
their parts. One of them, in the tool's own namespace, marks a part as skipped. -/
namespace AssessmentPlans
open Json (Value Shape Fields optionalMember)

structure Property where
  name : String
  value : String
  ns : Option String
  remarks : Option String
  others : List (String × Value)

namespace Property

/-- Namespace of the properties that this tool attaches. -/
def toolNamespace : String := "https://complytime.dev/ns/oscal"

def plain (name value : String) : Property := ⟨name, value, none, none, []⟩

def ofTool (name value : String) : Property := ⟨name, value, some toolNamespace, none, []⟩

def isNamed (name : String) (ns : Option String) (p : Property) : Bool :=
  p.name == name && p.ns == ns

/-- The first property of that name in that namespace; none stands for no namespace. -/
def find? (name : String) (ns : Option String) (props : Option (List Property)) :
    Option Property :=
  (props.getD []).find? (isNamed name ns)

def has (name : String) (ns : Option String) (value : String)
    (props : Option (List Property)) : Bool :=
  (find? name ns props).any (·.value == value)

def skipped : String := "skipped"

/-- Whether the marker for skipped parts is there and set. -/
def isSkipped (props : Option (List Property)) : Bool :=
  has skipped (some toolNamespace) "true" props

/-- Sets the first marker, or puts one at the end. -/
def setMarker : List Property → List Property
  | [] => [ofTool skipped "true"]
  | p :: ps =>
    if p.isNamed skipped (some toolNamespace) then { p with value := "true" } :: ps
    else p :: setMarker ps

def markSkipped (props : Option (List Property)) : Option (List Property) :=
  some (setMarker (props.getD []))

def fields : Fields := .ofList [
  ("name", .required, .anyText),
  ("value", .required, .anyText),
  ("ns", .optional, .anyText),
  ("remarks", .optional, .anyText)]

def shape : Shape := .record "Property" .opened fields

/-- The property that a value of this shape stands for. -/
def ofValue (v : Value) : Property where
  name := v.getText "name"
  value := v.getText "value"
  ns := v.getText? "ns"
  remarks := v.getText? "remarks"
  others := v.besides fields.names

def toValue (p : Property) : Value :=
  .object (("name", .text p.name) :: ("value", .text p.value) ::
    optionalMember "ns" (p.ns.map .text) ++ optionalMember "remarks" (p.remarks.map .text) ++
    p.others)

end Property

/-- The optional list of properties of a part, as a member of its object. -/
def propsMember (props : Option (List Property)) : List (String × Value) :=
  optionalMember "props" (props.map fun ps => .array (ps.map Property.toValue))

def propsOf (v : Value) : Option (List Property) :=
  (v.getItems? "props").map (·.map Property.ofValue)

end AssessmentPlans
