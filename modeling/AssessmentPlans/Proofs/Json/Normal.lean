import AssessmentPlans.Json.Shape
import AssessmentPlans.Proofs.Json.Canonical

/-! Values in the normal form of a shape: fields in the order of their declaration, with
only optional ones absent, then the members that are no fields in ascending order. What
is read by a shape is in its normal form, and a value in normal form is read unchanged. -/
namespace AssessmentPlans.Json

/-- What a record may hold besides its fields, where a rule holds for each value. -/
structure Remainder (P : Value → Prop) (room : Nat) (names : List String)
    (ms : List (String × Value)) : Prop where
  ascending : ms.Pairwise fun m n => m.1 < n.1
  apart : ∀ m ∈ ms, m.1 ∉ names
  canonical : ∀ m ∈ ms, m.2.Canonical room
  holds : ∀ m ∈ ms, P m.2

mutual

/-- The value is in the normal form of the shape, with that much room for containers.
`P` is a rule for the members that are no fields. -/
def Shape.Normal (P : Value → Prop) (room : Nat) : Shape → Value → Prop
  | .text _ objection, v => ∃ s, v = .text s ∧ objection s = none
  | .list item, v => ∃ inner vs, room = inner + 1 ∧ v = .array vs ∧ ∀ x ∈ vs, item.Normal P inner x
  | .record _ style fields, v => ∃ inner known others, room = inner + 1 ∧
      v = .object (known ++ others) ∧ fields.Normal P inner known ∧
      Remainder P inner fields.names others ∧ (style = .closed → others = [])

def Fields.Normal (P : Value → Prop) (room : Nat) : Fields → List (String × Value) → Prop
  | .nil, ms => ms = []
  | .cons name need shape rest, ms =>
    (∃ v tail, ms = (name, v) :: tail ∧ shape.Normal P room v ∧ rest.Normal P room tail) ∨
      need.isOptional = true ∧ rest.Normal P room ms

end

mutual

/-- No field is declared twice, and what absent fields are filled with is in normal form. -/
def Shape.Sound (room : Nat) : Shape → Prop
  | .text _ _ => True
  | .list item => item.Sound (room - 1)
  | .record _ _ fields => fields.Sound (room - 1)

def Fields.Sound (room : Nat) : Fields → Prop
  | .nil => True
  | .cons name need shape rest =>
    name ∉ rest.names ∧ (∀ v, need = .filled v → shape.Normal (fun _ => True) room v) ∧
      shape.Sound room ∧ rest.Sound room

end

variable {P : Value → Prop}

theorem Value.draftMembers_append (surplus : Nat → Fault) (ms ns : List (String × Value)) :
    draftMembers surplus (ms ++ ns) = draftMembers surplus ms ++ draftMembers surplus ns := by
  rw [draftMembers_eq_map, draftMembers_eq_map, draftMembers_eq_map, List.map_append]

theorem mem_of_lookup_eq_some {α : Type} {key : String} {value : α} {ms : List (String × α)}
    (h : ms.lookup key = some value) : (key, value) ∈ ms := by
  obtain ⟨before, after, rfl, _⟩ := List.lookup_eq_some_iff.mp h
  exact List.mem_append_right before List.mem_cons_self

theorem Remainder.nil {room : Nat} {names : List String} : Remainder P room names [] :=
  ⟨List.Pairwise.nil, List.forall_mem_nil _, List.forall_mem_nil _, List.forall_mem_nil _⟩

/-! Reading a value in normal form. -/

theorem Shape.Normal.not_null {shape : Shape} {room : Nat} {v : Value}
    (h : shape.Normal P room v) (surplus : Nat → Fault) : (v.draft surplus).isNull = false := by
  cases shape with
  | text expected objection =>
      obtain ⟨s, rfl, _⟩ := h
      rfl
  | list item =>
      obtain ⟨_, vs, _, rfl, _⟩ := h
      rfl
  | record name style fields =>
      obtain ⟨_, known, others, _, rfl, _⟩ := h
      rfl

/-- Induction on the declarations of a record, whatever their shapes. -/
@[elab_as_elim]
theorem Fields.spine {motive : Fields → Prop} (nil : motive .nil)
    (cons : ∀ name need shape rest, motive rest → motive (.cons name need shape rest)) :
    ∀ fields, motive fields
  | .nil => nil
  | .cons name need shape rest => cons name need shape rest (spine nil cons rest)

theorem Fields.Normal.names_sublist {fields : Fields} {room : Nat} {ms : List (String × Value)}
    (h : fields.Normal P room ms) : (ms.map (·.1)).Sublist fields.names := by
  induction fields using Fields.spine generalizing ms with
  | nil =>
      cases h
      exact List.Sublist.refl _
  | cons name need shape rest ih =>
      rcases h with ⟨v, tail, rfl, _, rest⟩ | ⟨_, rest⟩
      · exact (ih rest).cons_cons name
      · exact (ih rest).cons name

theorem Fields.Sound.names_nodup {fields : Fields} {room : Nat} (h : fields.Sound room) :
    fields.names.Nodup := by
  induction fields using Fields.spine with
  | nil => exact List.nodup_nil
  | cons name need shape rest ih => exact List.nodup_cons.mpr ⟨h.1, ih h.2.2.2⟩

theorem Fields.readField_eq_none {fields : Fields} {room : Nat} {key : String} {d : Draft} :
    fields.readField room key d = none ↔ key ∉ fields.names := by
  induction fields using Fields.spine with
  | nil => exact iff_of_true rfl List.not_mem_nil
  | cons name need shape rest ih =>
      rw [Fields.readField]
      by_cases same : key = name
      · simp [same, Fields.names]
      · simp [same, Fields.names, ih]

/-- Fields that have been met by none are added to those that have. -/
theorem gather_known {room : Nat} {surplus : Nat → Fault}
    {readField : String → Draft → Option (Except Fault (Option Value))}
    {known : List (String × Value)} {met : List (String × Option Value)} (style : Style)
    (others : List (String × Value)) (ds : List (Except Fault String × Draft))
    (each : ∀ m ∈ known, readField m.1 (m.2.draft surplus) = some (.ok (some m.2)))
    (once : (known.map (·.1)).Nodup) (fresh : ∀ m ∈ known, met.lookup m.1 = none) :
    ∃ all, gather style room readField ⟨met, others⟩ (Value.draftMembers surplus known ++ ds) =
        gather style room readField ⟨all, others⟩ ds ∧
      ∀ name, all.lookup name = ((known.lookup name).map some).or (met.lookup name) := by
  induction known generalizing met with
  | nil => exact ⟨met, rfl, fun name => rfl⟩
  | cons m known ih =>
      obtain ⟨key, v⟩ := m
      obtain ⟨first, later⟩ := List.forall_mem_cons.mp each
      obtain ⟨unused, rest⟩ := List.nodup_cons.mp once
      have other : ∀ m ∈ known, m.1 ≠ key :=
        fun m hm same => unused (List.mem_map.mpr ⟨m, hm, same⟩)
      have fresh' : ∀ m ∈ known, ((key, some v) :: met).lookup m.1 = none := by
        intro m hm
        rw [List.lookup_cons, beq_false_of_ne (other m hm)]
        exact fresh m (List.mem_cons_of_mem _ hm)
      obtain ⟨all, same, found⟩ := ih later rest fresh'
      refine ⟨all, ?_, ?_⟩
      · rw [← same, Value.draftMembers, List.cons_append, gather]
        simp only [bind, Except.bind, first, fresh _ List.mem_cons_self, Option.isSome_none,
          Bool.false_eq_true, if_false]
      · intro name
        rw [found name, List.lookup_cons, List.lookup_cons]
        by_cases here : name = key
        · have absent : known.lookup key = none := by
            rw [List.lookup_eq_none_iff]
            intro m hm
            exact bne_iff_ne.mpr (other m hm).symm
          subst here
          simp only [BEq.rfl, absent, Option.map_none, Option.none_or, Option.map_some,
            Option.some_or]
        · simp only [beq_false_of_ne here]

/-- Members that are no fields are kept by an open record, in their order. -/
theorem gather_others {room : Nat} {surplus : Nat → Fault}
    {readField : String → Draft → Option (Except Fault (Option Value))}
    {met : List (String × Option Value)} {others sofar : List (String × Value)}
    (each : ∀ m ∈ others, readField m.1 (m.2.draft surplus) = none)
    (canonical : ∀ m ∈ others, m.2.Canonical room)
    (ascending : (sofar ++ others).Pairwise fun m n => m.1 < n.1) :
    gather .opened room readField ⟨met, sofar⟩ (Value.draftMembers surplus others) =
      .ok ⟨met, sofar ++ others⟩ := by
  induction others generalizing sofar with
  | nil => rw [Value.draftMembers, gather, List.append_nil]
  | cons m others ih =>
      obtain ⟨key, v⟩ := m
      obtain ⟨first, later⟩ := List.forall_mem_cons.mp each
      obtain ⟨fits, rest⟩ := List.forall_mem_cons.mp canonical
      have above : ∀ m ∈ sofar, m.1 < key := fun m hm =>
        (List.pairwise_append.mp ascending).2.2 m hm _ List.mem_cons_self
      rw [List.append_cons] at ascending ⊢
      rw [← ih later rest ascending, Value.draftMembers, gather, ← setMember_append above]
      simp only [bind, Except.bind, first, Value.value_draft surplus room v fits]

theorem Fields.assemble_normal {fields : Fields} {room : Nat} {ms : List (String × Value)}
    {known : List (String × Option Value)} (h : fields.Normal P room ms)
    (once : fields.names.Nodup)
    (found : ∀ name ∈ fields.names, known.lookup name = (ms.lookup name).map some) :
    fields.assemble known = .ok ms := by
  induction fields using Fields.spine generalizing ms with
  | nil =>
      cases h
      rfl
  | cons name need shape rest ih =>
      obtain ⟨apart, unique⟩ := List.nodup_cons.mp once
      obtain ⟨here, there⟩ := List.forall_mem_cons.mp found
      rcases h with ⟨v, tail, rfl, _, h⟩ | ⟨optional, h⟩
      · have rest := ih h unique fun n hn => by
          have ne : n ≠ name := fun same => apart (same ▸ hn)
          rw [there n hn, List.lookup_cons, beq_false_of_ne ne]
        rw [List.lookup_cons_self, Option.map_some] at here
        simp only [Fields.assemble, here, rest]
        rfl
      · have absent : ms.lookup name = none := by
          rw [List.lookup_eq_none_iff]
          intro m hm
          have member : m.1 ∈ rest.names :=
            h.names_sublist.subset (List.mem_map.mpr ⟨m, hm, rfl⟩)
          refine bne_iff_ne.mpr ?_
          rintro rfl
          exact apart member
        rw [absent, Option.map_none] at here
        cases need with
        | optional => simp only [Fields.assemble, here, ih h unique there]
        | required => cases optional
        | filled v => cases optional

theorem gather_normal {style : Style} {fields : Fields} {room : Nat} {surplus : Nat → Fault}
    {known others : List (String × Value)}
    (each : ∀ m ∈ known, fields.readField room m.1 (m.2.draft surplus) = some (.ok (some m.2)))
    (once : (known.map (·.1)).Nodup) (rest : Remainder P room fields.names others)
    (closed : style = .closed → others = []) :
    ∃ all, gather style room (fields.readField room) ⟨[], []⟩
        (Value.draftMembers surplus (known ++ others)) = .ok ⟨all, others⟩ ∧
      ∀ name, all.lookup name = (known.lookup name).map some := by
  have fresh : ∀ m ∈ known, ([] : List (String × Option Value)).lookup m.1 = none :=
    fun _ _ => rfl
  obtain ⟨all, same, found⟩ :=
    gather_known style [] (Value.draftMembers surplus others) each once fresh
  refine ⟨all, ?_, fun name => by rw [found name, List.lookup_nil, Option.or_none]⟩
  rw [Value.draftMembers_append, same]
  cases style with
  | closed =>
      rw [closed rfl]
      rfl
  | opened =>
      have unknown : ∀ m ∈ others, fields.readField room m.1 (m.2.draft surplus) = none :=
        fun m hm => Fields.readField_eq_none.mpr (rest.apart m hm)
      rw [← List.nil_append others] at rest ⊢
      exact gather_others unknown rest.canonical rest.ascending

mutual

/-- A value in normal form is read unchanged from its draft. -/
theorem Shape.read_draft (surplus : Nat → Fault) (room : Nat) (shape : Shape) (v : Value)
    (sound : shape.Sound room) (h : shape.Normal P room v) :
    shape.read room (v.draft surplus) = .ok v := by
  cases shape with
  | text expected objection =>
      obtain ⟨s, rfl, fine⟩ := h
      simp only [Value.draft, Shape.read, fine]
  | list item =>
      obtain ⟨inner, vs, rfl, rfl, items⟩ := h
      have each : ∀ x ∈ vs, item.read inner (x.draft surplus) = .ok (id x) :=
        fun x hx => Shape.read_draft surplus inner item x sound (items x hx)
      have read := mapM_eq_ok each
      rw [List.map_id] at read
      simp only [Value.draft, Value.draftItems_eq_map, Shape.read, read]
      rfl
  | record name style fields =>
      obtain ⟨inner, known, others, rfl, rfl, fits, rest, closed⟩ := h
      have each := Fields.readField_draft surplus inner fields known sound fits
      have once := Fields.Sound.names_nodup sound
      obtain ⟨all, gathered, found⟩ :=
        gather_normal each (once.sublist fits.names_sublist) rest closed
      have assembled := Fields.assemble_normal fits once fun name _ => found name
      simp only [Value.draft, Shape.read, gathered]
      simp only [bind, Except.bind, Draft.closing, assembled]
      rfl

theorem Fields.readField_draft (surplus : Nat → Fault) (room : Nat) (fields : Fields)
    (ms : List (String × Value)) (sound : fields.Sound room) (h : fields.Normal P room ms) :
    ∀ m ∈ ms, fields.readField room m.1 (m.2.draft surplus) = some (.ok (some m.2)) := by
  cases fields with
  | nil =>
      cases h
      exact nofun
  | cons name need shape rest =>
      obtain ⟨apart, _, first, later⟩ := sound
      have tail : ∀ ns, rest.Normal P room ns → ∀ m ∈ ns,
          (Fields.cons name need shape rest).readField room m.1 (m.2.draft surplus) =
            some (.ok (some m.2)) := by
        intro ns fits m hm
        have member : m.1 ∈ rest.names :=
          fits.names_sublist.subset (List.mem_map.mpr ⟨m, hm, rfl⟩)
        have other : m.1 ≠ name := fun same => apart (same ▸ member)
        rw [Fields.readField, if_neg other]
        exact Fields.readField_draft surplus room rest ns later fits m hm
      rcases h with ⟨v, ns, rfl, fits, h⟩ | ⟨_, h⟩
      · intro m hm
        rcases List.mem_cons.mp hm with rfl | hm
        · have read := Shape.read_draft surplus room shape v first fits
          simp only [Fields.readField, if_true, fits.not_null, Bool.and_false, read]
          rfl
        · exact tail ns h m hm
      · exact tail ms h

end

/-! What is read is in normal form. -/

/-- What may be read for the field of that name; nothing, where the field may be absent. -/
def Fields.Allows (P : Value → Prop) (room : Nat) (key : String) : Fields → Option Value → Prop
  | .nil, _ => False
  | .cons name need shape rest, v =>
    if key = name then
      (v = none → need.isOptional = true) ∧ ∀ x, v = some x → shape.Normal P room x
    else rest.Allows P room key v

/-- What has been gathered belongs to a record with these fields. -/
structure Gathered.Fits (g : Gathered) (style : Style) (fields : Fields) (room : Nat) : Prop where
  known : ∀ m ∈ g.known, fields.Allows (fun _ => True) room m.1 m.2
  rest : Remainder (fun _ => True) room fields.names g.others
  closed : style = .closed → g.others = []

theorem gather_fits {style : Style} {fields : Fields} {room : Nat} {g all : Gathered}
    {ds : List (Except Fault String × Draft)}
    (each : ∀ key d v, fields.readField room key d = some (.ok v) →
      fields.Allows (fun _ => True) room key v)
    (fits : g.Fits style fields room)
    (h : gather style room (fields.readField room) g ds = .ok all) :
    all.Fits style fields room := by
  induction ds generalizing g with
  | nil =>
      cases h
      exact fits
  | cons m ds ih =>
      obtain ⟨key, d⟩ := m
      rw [gather] at h
      obtain ⟨key, rfl, step⟩ := bind_eq_ok.mp h
      cases field : fields.readField room key d with
      | some result =>
          simp only [field] at step
          split at step
          · cases step
          · obtain ⟨v, rfl, later⟩ := bind_eq_ok.mp step
            apply ih _ later
            exact ⟨List.forall_mem_cons.mpr ⟨each key d v field, fits.known⟩, fits.rest, fits.closed⟩
      | none =>
          simp only [field] at step
          cases style with
          | opened =>
              obtain ⟨v, read, later⟩ := bind_eq_ok.mp step
              have canonical := Value.canonical_of_value room d v read
              have rest : Remainder (fun _ => True) room fields.names (setMember key v g.others) := by
                refine ⟨setMember_ascending fits.rest.ascending, ?_, ?_, fun _ _ => trivial⟩
                · intro m hm
                  rcases mem_setMember hm with rfl | old
                  · exact Fields.readField_eq_none.mp field
                  · exact fits.rest.apart m old
                · intro m hm
                  rcases mem_setMember hm with rfl | old
                  · exact canonical
                  · exact fits.rest.canonical m old
              apply ih _ later
              exact ⟨fits.known, rest, nofun⟩
          | closed =>
              obtain ⟨_, _, later⟩ := bind_eq_ok.mp step
              exact ih fits later

theorem Fields.normal_of_assemble {fields : Fields} {room : Nat} {ms : List (String × Value)}
    {known : List (String × Option Value)} (sound : fields.Sound room)
    (allowed : ∀ name ∈ fields.names, ∀ v, known.lookup name = some v →
      fields.Allows (fun _ => True) room name v)
    (h : fields.assemble known = .ok ms) : fields.Normal (fun _ => True) room ms := by
  induction fields using Fields.spine generalizing ms with
  | nil =>
      cases h
      rfl
  | cons name need shape rest ih =>
      obtain ⟨apart, filled, _, later⟩ := sound
      obtain ⟨here, there⟩ := List.forall_mem_cons.mp allowed
      have tail : ∀ ns, rest.assemble known = .ok ns → rest.Normal (fun _ => True) room ns := by
        intro ns assembled
        refine ih later ?_ assembled
        intro n hn v found
        have other : n ≠ name := fun same => apart (same ▸ hn)
        have allowed := there n hn v found
        rwa [Fields.Allows, if_neg other] at allowed
      unfold Fields.assemble at h
      split at h
      · next v found =>
        obtain ⟨ns, assembled, h⟩ := bind_eq_ok.mp h
        cases h
        have allowed := here _ found
        rw [Fields.Allows, if_pos rfl] at allowed
        exact .inl ⟨v, ns, rfl, allowed.2 v rfl, tail ns assembled⟩
      · next found =>
        have allowed := here _ found
        rw [Fields.Allows, if_pos rfl] at allowed
        exact .inr ⟨allowed.1 rfl, tail ms h⟩
      · cases h
      · exact .inr ⟨rfl, tail ms h⟩
      · next v _ =>
        obtain ⟨ns, assembled, h⟩ := bind_eq_ok.mp h
        cases h
        exact .inl ⟨v, ns, rfl, filled v rfl, tail ns assembled⟩

mutual

/-- What a draft is read as is in normal form. -/
theorem Shape.normal_of_read (room : Nat) (shape : Shape) (d : Draft) (v : Value)
    (sound : shape.Sound room) (h : shape.read room d = .ok v) :
    shape.Normal (fun _ => True) room v := by
  cases shape with
  | text expected objection =>
      unfold Shape.read at h
      split at h
      · next s =>
        split at h
        · next fine =>
          cases h
          exact ⟨s, rfl, fine⟩
        · cases h
      · cases h
  | list item =>
      unfold Shape.read at h
      split at h
      · cases h
      · next ds close surplus inner =>
        obtain ⟨vs, read, h⟩ := bind_eq_ok.mp h
        obtain ⟨_, _, h⟩ := bind_eq_ok.mp h
        cases h
        refine ⟨inner, vs, rfl, rfl, ?_⟩
        intro x hx
        obtain ⟨d, _, read⟩ := exists_of_mapM_eq_ok read x hx
        exact Shape.normal_of_read inner item d x sound read
      · cases h
  | record name style fields =>
      unfold Shape.read at h
      split at h
      · cases h
      · next ms close inner =>
        obtain ⟨g, gathered, h⟩ := bind_eq_ok.mp h
        obtain ⟨_, _, h⟩ := bind_eq_ok.mp h
        obtain ⟨known, assembled, h⟩ := bind_eq_ok.mp h
        cases h
        have each := Fields.allows_of_readField inner fields sound
        have fits := gather_fits each ⟨List.forall_mem_nil _, Remainder.nil, fun _ => rfl⟩ gathered
        refine ⟨inner, known, g.others, rfl, rfl, ?_, fits.rest, fits.closed⟩
        refine Fields.normal_of_assemble sound ?_ assembled
        intro name _ v found
        exact fits.known _ (mem_of_lookup_eq_some found)
      · cases h
      · next ds close surplus inner =>
        obtain ⟨ms, read, h⟩ := bind_eq_ok.mp h
        cases h
        refine ⟨inner, ms, [], rfl, by rw [List.append_nil], ?_, Remainder.nil, fun _ => rfl⟩
        exact Fields.normal_of_readInOrder inner _ close surplus fields 0 ds ms sound read
      · cases h

theorem Fields.allows_of_readField (room : Nat) (fields : Fields) (sound : fields.Sound room)
    (key : String) (d : Draft) (v : Option Value) (h : fields.readField room key d = some (.ok v)) :
    fields.Allows (fun _ => True) room key v := by
  cases fields with
  | nil => cases h
  | cons name need shape rest =>
      obtain ⟨_, _, first, later⟩ := sound
      rw [Fields.readField] at h
      rw [Fields.Allows]
      by_cases same : key = name
      · rw [if_pos same] at h ⊢
        split at h
        · next absent =>
          cases h
          exact ⟨fun _ => (Bool.and_eq_true_iff.mp absent).1, nofun⟩
        · obtain ⟨x, read, rfl⟩ := map_eq_ok.mp (Option.some.inj h)
          refine ⟨nofun, ?_⟩
          intro y same
          cases same
          exact Shape.normal_of_read room shape d x first read
      · rw [if_neg same] at h ⊢
        exact Fields.allows_of_readField room rest later key d v h

theorem Fields.normal_of_readInOrder (room : Nat) (short : Nat → Fault) (close : Option Stop)
    (surplus : Fault) (fields : Fields) (n : Nat) (ds : List Draft) (ms : List (String × Value))
    (sound : fields.Sound room)
    (h : fields.readInOrder room short close surplus n ds = .ok ms) :
    fields.Normal (fun _ => True) room ms := by
  cases fields with
  | nil =>
      cases ds with
      | nil =>
          unfold Fields.readInOrder at h
          split at h
          · cases h
            rfl
          · cases h
      | cons d ds => cases h
  | cons name need shape rest =>
      obtain ⟨_, filled, first, later⟩ := sound
      have tail := fun n ds ns =>
        Fields.normal_of_readInOrder room short close surplus rest n ds ns later
      cases ds with
      | nil =>
          unfold Fields.readInOrder at h
          obtain ⟨_, _, h⟩ := bind_eq_ok.mp h
          cases need with
          | required => cases h
          | optional => exact .inr ⟨rfl, tail _ _ _ h⟩
          | filled v =>
              obtain ⟨ns, read, h⟩ := bind_eq_ok.mp h
              cases h
              exact .inl ⟨v, ns, rfl, filled v rfl, tail _ _ _ read⟩
      | cons d ds =>
          unfold Fields.readInOrder at h
          split at h
          · next absent => exact .inr ⟨(Bool.and_eq_true_iff.mp absent).1, tail _ _ _ h⟩
          · obtain ⟨v, item, h⟩ := bind_eq_ok.mp h
            obtain ⟨ns, read, h⟩ := bind_eq_ok.mp h
            cases h
            have fits := Shape.normal_of_read room shape d v first item
            exact .inl ⟨v, ns, rfl, fits, tail _ _ _ read⟩

end

end AssessmentPlans.Json
