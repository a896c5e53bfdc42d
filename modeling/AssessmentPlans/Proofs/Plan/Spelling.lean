import AssessmentPlans.Proofs.Plan.Members
import AssessmentPlans.Proofs.Json.Spelling

/-! The shapes of a plan and its parts spell plans and their parts: what is in the normal
form of a shape is what is written for a part, and the members that are no fields are in
order. -/
namespace AssessmentPlans
open Json

variable {P : Value → Prop} {room : Nat}

theorem Property.spells (enough : 0 < room) :
    shape.Spells P room toValue fun p => p.Every (Remainder P) (room - 1) := by
  have known : fields.Spells P (room - 1) _ _ :=
    .always rfl .text (.always rfl .text (.maybe .text (.maybe .text .nil)))
  refine (Shape.Spells.opened enough known).along
    (fun ⟨⟨name, value, ns, remarks, _⟩, others⟩ => ⟨name, value, ns, remarks, others⟩)
    (fun p => ⟨⟨p.name, p.value, p.ns, p.remarks, ()⟩, p.others⟩) (fun _ => rfl) ?_ ?_
  · intro a
    simp only [toValue, List.cons_append, List.append_assoc, List.append_nil]
  · intro a
    simp [Every]

theorem Property.list_spells (enough : 1 < room) :
    (Shape.list shape).Spells P room (fun ps : List Property => .array (ps.map toValue))
      fun ps => ∀ p ∈ ps, p.Every (Remainder P) (room - 2) :=
  .list (by omega) (spells (by omega))

theorem Metadata.spells (enough : 0 < room) :
    shape.Spells P room toValue fun m => m.Every (Remainder P) (room - 1) := by
  have known : fields.Spells P (room - 1) _ _ :=
    .always rfl .text (.always rfl .text (.always rfl .text (.always rfl .text .nil)))
  refine (Shape.Spells.opened enough known).along
    (fun ⟨⟨title, modified, version, oscal, _⟩, others⟩ => ⟨title, modified, version, oscal, others⟩)
    (fun m => ⟨⟨m.title, m.lastModified, m.version, m.oscalVersion, ()⟩, m.others⟩)
    (fun _ => rfl) (fun _ => rfl) ?_
  intro a
  simp [Every]

theorem SystemPlan.spells (enough : 0 < room) :
    shape.Spells P room toValue fun s => s.Every (Remainder P) (room - 1) := by
  have known : fields.Spells P (room - 1) _ _ := .always rfl .text .nil
  refine (Shape.Spells.opened enough known).along (fun ⟨⟨href, _⟩, others⟩ => ⟨href, others⟩)
    (fun s => ⟨⟨s.href, ()⟩, s.others⟩) (fun _ => rfl) (fun _ => rfl) ?_
  intro a
  simp [Every]

theorem ControlRef.spells (enough : 1 < room) :
    shape.Spells P room toValue fun _ => True := by
  have known : fields.Spells P (room - 1) _ _ :=
    .always rfl .text (.maybe (.list (by omega) .text) .nil)
  refine (Shape.Spells.closed (by omega) known).along (fun ⟨id, statements, _⟩ => ⟨id, statements⟩)
    (fun c => ⟨c.id, c.statements, ()⟩) (fun _ => rfl) ?_ ?_
  · intro a
    simp only [toValue, List.append_nil]
  · intro a
    simp

theorem ControlRef.list_spells (enough : 2 < room) :
    (Shape.list shape).Spells P room (fun cs : List ControlRef => .array (cs.map toValue))
      fun cs => ∀ c ∈ cs, True :=
  .list (by omega) (spells (by omega))

theorem Selection.allShape_spells (enough : 0 < room) :
    allShape.Spells P room (fun _ : Unit => .object []) fun _ => True :=
  .closed enough .nil

theorem Selection.spells (enough : 3 < room) :
    shape.Spells P room toValue fun s => s.Every (Remainder P) (room - 1) := by
  have known : fields.Spells P (room - 1) _ _ :=
    .maybe .text (.maybe (Property.list_spells (by omega)) (.maybe (allShape_spells (by omega))
      (.maybe (ControlRef.list_spells (by omega)) (.maybe (ControlRef.list_spells (by omega)) .nil))))
  refine (Shape.Spells.opened (by omega) known).along
    (fun ⟨⟨description, props, all, includes, excludes, _⟩, others⟩ =>
      ⟨description, props, all.isSome, includes, excludes, others⟩)
    (fun s => ⟨⟨s.description, s.props, if s.includeAll then some () else none,
      s.includes, s.excludes, ()⟩, s.others⟩) ?_ ?_ ?_
  · rintro ⟨_, _, all, _, _, _⟩
    cases all <;> rfl
  · rintro ⟨⟨_, _, all, _, _, _⟩, _⟩
    cases all <;>
      simp [toValue, textMember, propsMember, refsMember, optionalMember]
  · intro a
    simp [every_iff, EveryProps]

theorem Selection.list_spells (enough : 4 < room) :
    (Shape.list shape).Spells P room (fun ss : List Selection => .array (ss.map toValue))
      fun ss => ∀ s ∈ ss, s.Every (Remainder P) (room - 2) :=
  .list (by omega) (spells (by omega))

theorem Review.spells (enough : 5 < room) :
    shape.Spells P room toValue fun r => r.Every (Remainder P) (room - 1) := by
  have known : fields.Spells P (room - 1) _ _ :=
    .maybe .text (.maybe (Property.list_spells (by omega))
      (.always rfl (Selection.list_spells (by omega)) .nil))
  refine (Shape.Spells.opened (by omega) known).along
    (fun ⟨⟨description, props, selections, _⟩, others⟩ => ⟨description, props, selections, others⟩)
    (fun r => ⟨⟨r.description, r.props, r.selections, ()⟩, r.others⟩) (fun _ => rfl) ?_ ?_
  · intro a
    simp [toValue, textMember, propsMember]
  · intro a
    simp [every_iff, EveryProps, and_assoc]

theorem Step.spells (enough : 6 < room) :
    shape.Spells P room toValue fun s => s.Every (Remainder P) (room - 1) := by
  have known : fields.Spells P (room - 1) _ _ :=
    .always rfl .text (.maybe .text (.always rfl .text
      (.maybe (Property.list_spells (by omega)) (.maybe (Review.spells (by omega)) .nil))))
  refine (Shape.Spells.opened (by omega) known).along
    (fun ⟨⟨uuid, title, description, props, reviewed, _⟩, others⟩ =>
      ⟨uuid, title, description, props, reviewed, others⟩)
    (fun s => ⟨⟨s.uuid, s.title, s.description, s.props, s.reviewed, ()⟩, s.others⟩)
    (fun _ => rfl) ?_ ?_
  · intro a
    simp [toValue, textMember, propsMember, reviewMember]
  · intro a
    simp [every_iff, EveryProps, and_assoc]

theorem Step.list_spells (enough : 7 < room) :
    (Shape.list shape).Spells P room (fun ss : List Step => .array (ss.map toValue))
      fun ss => ∀ s ∈ ss, s.Every (Remainder P) (room - 2) :=
  .list (by omega) (spells (by omega))

theorem Activity.spells (enough : 8 < room) :
    shape.Spells P room toValue fun a => a.Every (Remainder P) (room - 1) := by
  have known : fields.Spells P (room - 1) _ _ :=
    .always rfl .text (.maybe .text (.always rfl .text
      (.maybe (Property.list_spells (by omega))
        (.maybe (Step.list_spells (by omega)) (.maybe (Review.spells (by omega)) .nil)))))
  refine (Shape.Spells.opened (by omega) known).along
    (fun ⟨⟨uuid, title, description, props, steps, related, _⟩, others⟩ =>
      ⟨uuid, title, description, props, steps, related, others⟩)
    (fun a => ⟨⟨a.uuid, a.title, a.description, a.props, a.steps, a.related, ()⟩, a.others⟩)
    (fun _ => rfl) ?_ ?_
  · intro a
    simp [toValue, textMember, propsMember, reviewMember]
  · intro a
    simp [every_iff, EveryProps, and_assoc]

theorem Activity.list_spells (enough : 9 < room) :
    (Shape.list shape).Spells P room (fun as : List Activity => .array (as.map toValue))
      fun as => ∀ a ∈ as, a.Every (Remainder P) (room - 2) :=
  .list (by omega) (spells (by omega))

theorem LocalDefinitions.spells (enough : 10 < room) :
    shape.Spells P room toValue fun l => l.Every (Remainder P) (room - 1) := by
  have known : fields.Spells P (room - 1) _ _ :=
    .maybe (Activity.list_spells (by omega)) .nil
  refine (Shape.Spells.opened (by omega) known).along
    (fun ⟨⟨activities, _⟩, others⟩ => ⟨activities, others⟩)
    (fun l => ⟨⟨l.activities, ()⟩, l.others⟩) (fun _ => rfl) ?_ ?_
  · intro a
    simp [toValue]
  · intro a
    simp [every_iff]

theorem Plan.spells (enough : 11 < room) :
    shape.Spells P room toValue fun p => p.Every (Remainder P) (room - 1) := by
  have known : fields.Spells P (room - 1) _ _ :=
    .always rfl .text (.always rfl (Metadata.spells (by omega))
      (.always rfl (SystemPlan.spells (by omega))
        (.maybe (LocalDefinitions.spells (by omega)) (.always rfl (Review.spells (by omega)) .nil))))
  refine (Shape.Spells.opened (by omega) known).along
    (fun ⟨⟨uuid, metadata, systemPlan, definitions, reviewed, _⟩, others⟩ =>
      ⟨uuid, metadata, systemPlan, definitions, reviewed, others⟩)
    (fun p => ⟨⟨p.uuid, p.metadata, p.systemPlan, p.definitions, p.reviewed, ()⟩, p.others⟩)
    (fun _ => rfl) ?_ ?_
  · intro a
    simp [toValue]
  · intro a
    simp [every_iff, and_assoc]

theorem Plan.document_spells (enough : 12 < room) :
    documentShape.Spells P room toDocument fun p => p.Every (Remainder P) (room - 2) := by
  have known : (Fields.ofList [("assessment-plan", .required, shape)]).Spells P (room - 1) _ _ :=
    .always rfl (spells (by omega)) .nil
  refine (Shape.Spells.closed (by omega) known).along (fun ⟨p, _⟩ => p) (fun p => ⟨p, ()⟩)
    (fun _ => rfl) (fun _ => rfl) ?_
  intro a
  exact (and_iff_left trivial).symm

end AssessmentPlans
