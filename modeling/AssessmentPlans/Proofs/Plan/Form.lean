import AssessmentPlans.Proofs.Json.Form
import AssessmentPlans.Proofs.Plan.Storable

/-! The format of plan documents, and that the reader takes exactly the documents of this
format. What it does not understand is kept everywhere but in the document itself, in marks
for all controls and in references to controls. -/
namespace AssessmentPlans
open Json (Value Form)

def Property.form : Form := .opened [
  ("name", .required, .text),
  ("value", .required, .text),
  ("ns", .optional, .text),
  ("remarks", .optional, .text)]

def Metadata.form : Form := .opened [
  ("title", .required, .text),
  ("last-modified", .filled (.text ""), .text),
  ("version", .filled (.text ""), .text),
  ("oscal-version", .filled (.text ""), .text)]

def SystemPlan.form : Form := .opened [("href", .required, .text)]

def ControlRef.form : Form := .closed [
  ("control-id", .required, .text),
  ("statement-ids", .optional, .list .text)]

def Selection.form : Form := .opened [
  ("description", .optional, .text),
  ("props", .optional, .list Property.form),
  ("include-all", .optional, .closed []),
  ("include-controls", .optional, .list ControlRef.form),
  ("exclude-controls", .optional, .list ControlRef.form)]

def Review.form : Form := .opened [
  ("description", .optional, .text),
  ("props", .optional, .list Property.form),
  ("control-selections", .filled (.array []), .list Selection.form)]

def Step.form : Form := .opened [
  ("uuid", .required, .text),
  ("title", .optional, .text),
  ("description", .filled (.text ""), .text),
  ("props", .optional, .list Property.form),
  ("reviewed-controls", .optional, Review.form)]

def Activity.form : Form := .opened [
  ("uuid", .required, .text),
  ("title", .optional, .text),
  ("description", .filled (.text ""), .text),
  ("props", .optional, .list Property.form),
  ("steps", .optional, .list Step.form),
  ("related-controls", .optional, Review.form)]

def LocalDefinitions.form : Form := .opened [("activities", .optional, .list Activity.form)]

namespace Plan

def form : Form := .opened [
  ("uuid", .required, .text),
  ("metadata", .required, Metadata.form),
  ("import-ssp", .required, SystemPlan.form),
  ("local-definitions", .optional, LocalDefinitions.form),
  ("reviewed-controls", .required, Review.form)]

def documentForm : Form := .closed [("assessment-plan", .required, form)]

theorem documentShape_form : documentShape.form = documentForm := by
  simp [documentShape, shape, fields, Metadata.shape, Metadata.fields, SystemPlan.shape,
    SystemPlan.fields, LocalDefinitions.shape, LocalDefinitions.fields, Activity.shape,
    Activity.fields, Step.shape, Step.fields, Review.shape, Review.fields, Selection.shape,
    Selection.fields, Selection.allShape, ControlRef.shape, ControlRef.fields, Property.shape,
    Property.fields, Json.Fields.ofList, Json.Shape.form, Json.Fields.form, Json.Shape.form_anyText,
    documentForm, form, LocalDefinitions.form, Activity.form, Step.form, Review.form,
    Selection.form, ControlRef.form, SystemPlan.form, Metadata.form, Property.form]

/-- What is read is what is written back. -/
theorem toDocument_of_readText {s : String} {w : Value} (h : documentShape.readText s = .ok w) :
    (ofDocument w).toDocument = w := by
  have normal := Json.Shape.normal_of_readText documentShape_sound h
  obtain ⟨p, carried, rfl⟩ := (document_spells (by decide) w).mp normal
  rw [ofDocument_toDocument carried]

end Plan

/-- A text is read as a plan exactly when the value that it says has the form of a plan
document. The plan is written as this form has it, and in which order the members stand in
the text does not matter. -/
theorem plan_reader_exact (v : Value) (s : String) (single : v.Single)
    (shallow : v.depth ≤ Json.depthLimit) (said : v.SaidBy s) :
    ((∃ p, Plan.ofText s = .ok p) ↔ Plan.documentForm.Holds v) ∧
      ∀ p, Plan.ofText s = .ok p → Plan.documentForm.Written v p.toDocument ∧
        ∀ (u : Value) (t : String), u.Single → u.depth ≤ Json.depthLimit →
          u.sorted = v.sorted → u.SaidBy t → Plan.ofText t = .ok p := by
  have read := fun w => Json.Shape.readText_iff (w := w) Plan.documentShape_sound single shallow said
  rw [← Plan.documentShape_form, ← Json.Shape.holds_iff]
  constructor
  · constructor
    · rintro ⟨p, h⟩
      obtain ⟨w, done, _⟩ := map_eq_ok.mp h
      exact ⟨w, (read w).mp done⟩
    · rintro ⟨w, kept⟩
      exact ⟨_, map_eq_ok.mpr ⟨w, (read w).mpr kept, rfl⟩⟩
  · intro p h
    obtain ⟨w, done, rfl⟩ := map_eq_ok.mp h
    have kept := (read w).mp done
    rw [Plan.toDocument_of_readText done]
    refine ⟨Json.Shape.written_of_keep _ _ v w Plan.documentShape_sound single kept, ?_⟩
    intro u t usingle ushallow same usaid
    have ukept : Plan.documentShape.keep u = some w := by
      rw [← Json.Shape.keep_sorted _ u usingle, same, Json.Shape.keep_sorted _ v single, kept]
    have done := (Json.Shape.readText_iff Plan.documentShape_sound usingle ushallow usaid).mpr ukept
    rw [Plan.ofText, done]
    rfl

/-- A document as it may be written by hand: members out of order and unknown ones, nothing
where something may be left out, and lists in the place of objects. -/
def looseDocument : Value := .array [.object [
  ("reviewed-controls", .object [
    ("control-selections", .array [.object [
      ("include-all", .array []),
      ("include-controls", .array [
        .array [.text "ac-1"],
        .object [("note", .natural 1), ("control-id", .text "ac-2")]])]]),
    ("origin", .object [("page", .natural 7), ("author", .null)])]),
  ("uuid", .text "p"),
  ("local-definitions", .null),
  ("import-ssp", .object [("href", .text "#")]),
  ("metadata", .object [("title", .text "Plan"), ("version", .text "2")])]]

theorem looseDocument_holds : Plan.documentForm.Holds looseDocument := by
  simp [looseDocument, Plan.documentForm, Plan.form, Metadata.form, SystemPlan.form,
    LocalDefinitions.form, Review.form, Selection.form, ControlRef.form, Form.closed, Form.opened,
    Form.list, Form.text, Form.stands_object, Form.stands_array, Json.Table.Met, Json.Table.names, Json.Need.Met,
    Json.lookup_cons_eq]

theorem plan_reader_exact_loose : ∃ p, Plan.ofText looseDocument.pretty = .ok p ∧
    Plan.documentForm.Written looseDocument p.toDocument := by
  have single : looseDocument.Single := by
    simp [looseDocument, Value.natural, Value.Single, Value.SingleItems, Value.SingleMembers]
  have whole : looseDocument.Whole := by
    simp [looseDocument, Value.natural, Value.Whole, Value.WholeItems, Value.WholeMembers, Json.Number.Whole]
  obtain ⟨accepted, written⟩ := plan_reader_exact looseDocument looseDocument.pretty single
    (by decide) (Value.ofText_pretty whole)
  obtain ⟨p, read⟩ := accepted.mpr looseDocument_holds
  exact ⟨p, read, (written p read).1⟩

end AssessmentPlans
