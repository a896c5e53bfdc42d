import AssessmentPlans.Json.Shape

/-! Metadata of a document: title, versions and the time of the last change. -/
namespace AssessmentPlans
open Json (Value Shape Fields)

structure Metadata where
  title : String
  lastModified : String
  version : String
  oscalVersion : String
  others : List (String × Value)

namespace Metadata

def fields : Fields := .ofList [
  ("title", .required, .anyText),
  ("last-modified", .filled (.text ""), .anyText),
  ("version", .filled (.text ""), .anyText),
  ("oscal-version", .filled (.text ""), .anyText)]

def shape : Shape := .record "Metadata" .opened fields

/-- The metadata that a value of this shape stands for. -/
def ofValue (v : Value) : Metadata where
  title := v.getText "title"
  lastModified := v.getText "last-modified"
  version := v.getText "version"
  oscalVersion := v.getText "oscal-version"
  others := v.besides fields.names

def toValue (m : Metadata) : Value :=
  .object (("title", .text m.title) :: ("last-modified", .text m.lastModified) ::
    ("version", .text m.version) :: ("oscal-version", .text m.oscalVersion) :: m.others)

end Metadata
end AssessmentPlans
