import AssessmentPlans.Proofs.Json.RoundTrip

/-! Shapes and the things that are written by them. A shape spells a kind of things when
the values in its normal form are what is written for them. -/
namespace AssessmentPlans.Json

variable {P : Value → Prop} {room : Nat} {α β : Type}

/-- The values in the normal form of the shape are those written for the things with `Q`. -/
def Shape.Spells (P : Value → Prop) (room : Nat) (shape : Shape) (write : α → Value)
    (Q : α → Prop) : Prop :=
  ∀ v, shape.Normal P room v ↔ ∃ a, Q a ∧ write a = v

def Fields.Spells (P : Value → Prop) (room : Nat) (fields : Fields)
    (write : α → List (String × Value)) (Q : α → Prop) : Prop :=
  ∀ ms, fields.Normal P room ms ↔ ∃ a, Q a ∧ write a = ms

namespace Fields.Spells

variable {name : String} {need : Need} {shape : Shape} {rest : Fields}
  {write : α → Value} {writeRest : β → List (String × Value)} {Q : α → Prop} {R : β → Prop}

theorem nil : Fields.nil.Spells P room (fun _ : Unit => []) fun _ => True := by
  intro ms
  constructor
  · intro h
    cases h
    exact ⟨(), trivial, rfl⟩
  · rintro ⟨_, _, rfl⟩
    rfl

theorem always (needed : need.isOptional = false) (item : shape.Spells P room write Q)
    (others : rest.Spells P room writeRest R) :
    (Fields.cons name need shape rest).Spells P room
      (fun a : α × β => (name, write a.1) :: writeRest a.2) fun a => Q a.1 ∧ R a.2 := by
  intro ms
  constructor
  · rintro (⟨v, tail, rfl, first, later⟩ | ⟨absent, _⟩)
    · obtain ⟨a, ha, rfl⟩ := (item v).mp first
      obtain ⟨b, hb, rfl⟩ := (others tail).mp later
      exact ⟨(a, b), ⟨ha, hb⟩, rfl⟩
    · rw [needed] at absent
      cases absent
  · rintro ⟨⟨a, b⟩, ⟨ha, hb⟩, rfl⟩
    have first := (item _).mpr ⟨a, ha, rfl⟩
    have later := (others _).mpr ⟨b, hb, rfl⟩
    exact .inl ⟨write a, writeRest b, rfl, first, later⟩

theorem maybe (item : shape.Spells P room write Q) (others : rest.Spells P room writeRest R) :
    (Fields.cons name .optional shape rest).Spells P room
      (fun a : Option α × β => optionalMember name (a.1.map write) ++ writeRest a.2)
      fun a => (∀ x, a.1 = some x → Q x) ∧ R a.2 := by
  intro ms
  constructor
  · rintro (⟨v, tail, rfl, first, later⟩ | ⟨_, later⟩)
    · obtain ⟨a, ha, rfl⟩ := (item v).mp first
      obtain ⟨b, hb, rfl⟩ := (others tail).mp later
      refine ⟨(some a, b), ⟨?_, hb⟩, rfl⟩
      rintro _ ⟨⟩
      exact ha
    · obtain ⟨b, hb, rfl⟩ := (others ms).mp later
      exact ⟨(none, b), ⟨nofun, hb⟩, rfl⟩
  · rintro ⟨⟨a, b⟩, ⟨ha, hb⟩, rfl⟩
    have later := (others _).mpr ⟨b, hb, rfl⟩
    cases a with
    | none => exact .inr ⟨rfl, later⟩
    | some a => exact .inl ⟨write a, writeRest b, rfl, (item _).mpr ⟨a, ha a rfl, rfl⟩, later⟩

end Fields.Spells

namespace Shape.Spells

variable {shape : Shape} {write : α → Value} {Q : α → Prop} {name : String} {fields : Fields}
  {writeFields : α → List (String × Value)}

theorem text {expected : String} {objection : String → Option String} :
    (Shape.text expected objection).Spells P room Value.text fun s => objection s = none := by
  intro v
  constructor
  · rintro ⟨s, rfl, fine⟩
    exact ⟨s, fine, rfl⟩
  · rintro ⟨s, fine, rfl⟩
    exact ⟨s, rfl, fine⟩

theorem list (enough : 0 < room) (item : shape.Spells P (room - 1) write Q) :
    (Shape.list shape).Spells P room (fun xs : List α => .array (xs.map write))
      fun xs => ∀ x ∈ xs, Q x := by
  intro v
  constructor
  · rintro ⟨inner, vs, rfl, rfl, items⟩
    have each : ∀ v ∈ vs, ∃ a, Q a ∧ write a = v := fun v hv => (item v).mp (items v hv)
    clear items
    induction vs with
    | nil => exact ⟨[], List.forall_mem_nil _, rfl⟩
    | cons v vs ih =>
        obtain ⟨⟨a, ha, rfl⟩, later⟩ := List.forall_mem_cons.mp each
        obtain ⟨xs, hxs, same⟩ := ih later
        refine ⟨a :: xs, List.forall_mem_cons.mpr ⟨ha, hxs⟩, ?_⟩
        exact congrArg (fun vs => Value.array (write a :: vs)) (Value.array.inj same)
  · rintro ⟨xs, each, rfl⟩
    refine ⟨room - 1, xs.map write, by omega, rfl, ?_⟩
    intro v hv
    obtain ⟨a, ha, rfl⟩ := List.mem_map.mp hv
    exact (item _).mpr ⟨a, each a ha, rfl⟩

theorem opened (enough : 0 < room) (h : fields.Spells P (room - 1) writeFields Q) :
    (Shape.record name .opened fields).Spells P room
      (fun a : α × List (String × Value) => .object (writeFields a.1 ++ a.2))
      fun a => Q a.1 ∧ Remainder P (room - 1) fields.names a.2 := by
  intro v
  constructor
  · rintro ⟨inner, known, others, rfl, rfl, fits, rest, _⟩
    obtain ⟨a, ha, rfl⟩ := (h known).mp fits
    exact ⟨(a, others), ⟨ha, rest⟩, rfl⟩
  · rintro ⟨⟨a, others⟩, ⟨ha, rest⟩, rfl⟩
    have fits := (h _).mpr ⟨a, ha, rfl⟩
    exact ⟨room - 1, writeFields a, others, by omega, rfl, fits, rest, nofun⟩

theorem closed (enough : 0 < room) (h : fields.Spells P (room - 1) writeFields Q) :
    (Shape.record name .closed fields).Spells P room (fun a => .object (writeFields a)) Q := by
  intro v
  constructor
  · rintro ⟨inner, known, others, rfl, rfl, fits, _, none⟩
    obtain ⟨a, ha, rfl⟩ := (h known).mp fits
    exact ⟨a, ha, by rw [none rfl, List.append_nil]⟩
  · rintro ⟨a, ha, rfl⟩
    have fits := (h _).mpr ⟨a, ha, rfl⟩
    refine ⟨room - 1, writeFields a, [], by omega, ?_, fits, Remainder.nil, fun _ => rfl⟩
    rw [List.append_nil]

/-- The same things, put together differently. -/
theorem along {write' : β → Value} {Q' : β → Prop} (h : shape.Spells P room write Q)
    (pack : α → β) (unpack : β → α) (onto : ∀ b, pack (unpack b) = b)
    (same : ∀ a, write' (pack a) = write a) (rule : ∀ a, Q' (pack a) ↔ Q a) :
    shape.Spells P room write' Q' := by
  intro v
  refine (h v).trans ?_
  constructor
  · rintro ⟨a, ha, rfl⟩
    exact ⟨pack a, (rule a).mpr ha, same a⟩
  · rintro ⟨b, hb, rfl⟩
    refine ⟨unpack b, (rule _).mp ?_, ?_⟩
    · rw [onto b]
      exact hb
    · rw [← same, onto b]

end Shape.Spells
end AssessmentPlans.Json
