import AssessmentPlans.Proofs.Instant.Format
import AssessmentPlans.Proofs.Json.Lookup
import AssessmentPlans.Proofs.Json.Spelling
import AssessmentPlans.Workspace.Lock

/-! The text of a lock is read back as that lock. -/
namespace AssessmentPlans
open Json

/-- Both ends of the lock can be written as dates. -/
structure Lock.Datable (l : Lock) : Prop where
  acquired : l.acquired.Datable
  expires : l.expires.Datable

/-- The clock shows this time in a year that has dates, and a lock taken now expires in one. -/
structure Instant.Timely (t : Instant) : Prop where
  now : t.Datable
  later : (t.addSeconds Lock.lifetime).Datable

namespace Lock

theorem make_datable {id holder : String} {now : Instant} (h : now.Timely) :
    (make id holder now).Datable :=
  ⟨h.now, h.later⟩

theorem shape_sound : shape.Sound depthLimit := by
  simp [shape, instantShape, Fields.ofList, Fields.names, Shape.Sound, Fields.Sound, Shape.anyText]

theorem normal_toValue {l : Lock} (h : l.Datable) {P : Value → Prop} :
    shape.Normal P depthLimit l.toValue := by
  have known : Fields.Spells P (depthLimit - 1) (.ofList [("lock_id", .required, .anyText),
      ("holder", .required, .anyText), ("acquired_at", .required, instantShape),
      ("expires_at", .required, instantShape)]) _ _ :=
    .always rfl .text (.always rfl .text (.always rfl .text (.always rfl .text .nil)))
  refine (Shape.Spells.closed (by decide) known _).mpr
    ⟨(l.id, l.holder, l.acquired.text, l.expires.text, ()), ⟨rfl, rfl, ?_, ?_, trivial⟩, rfl⟩
  · simp only [h.acquired.ofText_text]
  · simp only [h.expires.ofText_text]

theorem Datable.ofText_text {l : Lock} (h : l.Datable) : ofText l.text = .ok l := by
  have read := Shape.readText_pretty shape_sound (normal_toValue h)
  have value : ofValue? l.toValue = some l := by
    simp [ofValue?, toValue, Value.getText, Value.getText?, Value.asText?, h.acquired.ofText_text,
      h.expires.ofText_text, Except.toOption]
  unfold ofText
  rw [text, read]
  simp only [bind, Except.bind, value]
  rfl

end Lock
end AssessmentPlans
