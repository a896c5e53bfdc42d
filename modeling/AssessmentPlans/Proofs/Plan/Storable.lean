import AssessmentPlans.Proofs.Plan.Kept
import AssessmentPlans.Proofs.Plan.RoundTrip

/-! Plans whose text is read back as the plan. Every plan that has been read is one, unless
one of its other members has a number that is not whole. -/
namespace AssessmentPlans
open Json

namespace Plan

/-- The room that is left for the members of a plan within its document. -/
def memberRoom : Nat := depthLimit - 2

/-- Numbers stand only in members that are no fields, and they are whole. -/
def WholeNumbers (p : Plan) : Prop :=
  p.Every (fun _ _ others => ∀ m ∈ others, m.2.Whole) memberRoom

/-- The text of the plan can be read back. -/
def Storable (p : Plan) : Prop := p.Every (Remainder Value.Whole) memberRoom

theorem documentShape_sound : documentShape.Sound depthLimit := by
  simp [documentShape, shape, fields, Metadata.shape, Metadata.fields, SystemPlan.shape,
    SystemPlan.fields, LocalDefinitions.shape, LocalDefinitions.fields, Activity.shape,
    Activity.fields, Step.shape, Step.fields, Review.shape, Review.fields, Selection.shape,
    Selection.fields, Selection.allShape, ControlRef.shape, ControlRef.fields, Property.shape,
    Property.fields, Fields.ofList, Fields.names, Shape.Sound, Fields.Sound, Shape.anyText,
    Shape.Normal, depthLimit]

theorem Storable.ofText_text {p : Plan} (h : p.Storable) : ofText p.text = .ok p := by
  have normal := (document_spells (by decide) _).mpr ⟨p, h, rfl⟩
  have read := Shape.readText_pretty documentShape_sound normal
  rw [ofText, text, read]
  exact congrArg Except.ok (ofDocument_toDocument h)

theorem every_of_ofText {s : String} {p : Plan} (h : ofText s = .ok p) :
    p.Every (Remainder fun _ => True) memberRoom := by
  obtain ⟨v, read, rfl⟩ := map_eq_ok.mp h
  have normal := Shape.normal_of_readText documentShape_sound read
  obtain ⟨p, carried, rfl⟩ := (document_spells (by decide) v).mp normal
  rw [ofDocument_toDocument carried]
  exact carried

theorem storable_of_ofText {s : String} {p : Plan} (h : ofText s = .ok p) (whole : p.WholeNumbers) :
    p.Storable := by
  apply (every_of_ofText h).both _ whole
  intro room names others rest numbers
  exact ⟨rest.ascending, rest.apart, rest.canonical, numbers⟩

theorem Storable.wholeNumbers {p : Plan} (h : p.Storable) : p.WholeNumbers :=
  h.both (fun _ _ _ rest _ => rest.holds) h

theorem Storable.tailor {p : Plan} (h : p.Storable) (scope : IdSet) : (p.tailor scope).Storable :=
  Every.tailor (fun _ _ => Remainder.nil) h scope

theorem Storable.touch {p : Plan} (h : p.Storable) (now : Instant) : (p.touch now).Storable :=
  Every.touch h now

theorem storable_of_synthesize {framework : String} {ds : List Definition} {ids : Nat → String}
    {now : String} {p : Plan} (h : synthesize framework ds ids now = .ok p) : p.Storable :=
  synthesize_every (fun _ _ => Remainder.nil) h

/-- The plans that a text stands for, or that have been built, after any number of changes. -/
inductive Arises : Plan → Prop where
  | read {s : String} {p : Plan} (h : ofText s = .ok p) (whole : p.WholeNumbers) : Arises p
  | built {framework : String} {ds : List Definition} {ids : Nat → String} {now : String}
      {p : Plan} (h : synthesize framework ds ids now = .ok p) : Arises p
  | tailored {p : Plan} (scope : Scope) (h : Arises p) : Arises (p.tailor scope.controls)
  | touched {p : Plan} (now : Instant) (h : Arises p) : Arises (p.touch now)

theorem Arises.storable {p : Plan} (h : p.Arises) : p.Storable := by
  induction h with
  | read h whole => exact storable_of_ofText h whole
  | built h => exact storable_of_synthesize h
  | tailored scope _ ih => exact ih.tailor scope.controls
  | touched now _ ih => exact ih.touch now

end Plan
end AssessmentPlans
