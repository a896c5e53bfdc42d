import AssessmentPlans.Json.Printer
import AssessmentPlans.Proofs.Json.Normal

/-! The text of a value in the normal form of a shape is read by the shape as that value. -/
namespace AssessmentPlans.Json

/-! Fields hold texts and containers only, so other members account for all numbers. -/

mutual

theorem Shape.Normal.whole (room : Nat) (shape : Shape) (v : Value)
    (h : shape.Normal Value.Whole room v) : v.Whole := by
  cases shape with
  | text expected objection =>
      obtain ⟨s, rfl, _⟩ := h
      trivial
  | list item =>
      obtain ⟨inner, vs, _, rfl, items⟩ := h
      exact Value.wholeItems_iff.mpr fun x hx => Shape.Normal.whole inner item x (items x hx)
  | record name style fields =>
      obtain ⟨inner, known, others, _, rfl, fits, rest, _⟩ := h
      refine Value.wholeMembers_iff.mpr ?_
      intro m hm
      rcases List.mem_append.mp hm with hm | hm
      · exact Fields.Normal.whole inner fields known fits m hm
      · exact rest.holds m hm

theorem Fields.Normal.whole (room : Nat) (fields : Fields) (ms : List (String × Value))
    (h : fields.Normal Value.Whole room ms) : ∀ m ∈ ms, m.2.Whole := by
  cases fields with
  | nil =>
      cases h
      exact List.forall_mem_nil _
  | cons name need shape rest =>
      rcases h with ⟨v, tail, rfl, fits, h⟩ | ⟨_, h⟩
      · have first := Shape.Normal.whole room shape v fits
        exact List.forall_mem_cons.mpr ⟨first, Fields.Normal.whole room rest tail h⟩
      · exact Fields.Normal.whole room rest ms h

end

namespace Shape

theorem readText_pretty {shape : Shape} {v : Value} (sound : shape.Sound depthLimit)
    (h : shape.Normal Value.Whole depthLimit v) : shape.readText v.pretty = .ok v := by
  have read := read_draft Value.textSurplus depthLimit shape v sound h
  rw [readText, Value.ofText_pretty (h.whole depthLimit shape v), Source.read, read]
  rfl

theorem normal_of_readText {shape : Shape} {s : String} {v : Value}
    (sound : shape.Sound depthLimit) (h : shape.readText s = .ok v) :
    shape.Normal (fun _ => True) depthLimit v := by
  obtain ⟨x, read, h⟩ := bind_eq_ok.mp h
  split at h
  · cases h
  · cases h
    exact normal_of_read depthLimit shape _ v sound read

end Shape
end AssessmentPlans.Json
