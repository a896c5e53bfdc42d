import AssessmentPlans.Proofs.Json.Kept
import Mathlib.Data.List.Forall2

/-! Formats of JSON values, said of values and not of texts: which values belong to a format,
and what they are written back as. Every shape reads one format. -/
namespace AssessmentPlans.Json

/-- Which values have the form, and what is written for one that was read. -/
structure Form where
  Holds : Value → Prop
  Written : Value → Value → Prop

/-- What becomes of a member, or of its absence, where a value is written as another. -/
inductive Need.Yields (written : Value → Value → Prop) :
    Need → Option Value → Option Value → Prop where
  | kept {need : Need} {v w : Value} (h : written v w) : Yields written need (some v) (some w)
  | null : Yields written .optional (some .null) none
  | absent : Yields written .optional none none
  | filled {w : Value} : Yields written (.filled w) none (some w)

/-- A required member is there. An optional one may be absent or null, and one that is filled
in may be absent. -/
def Need.Met (form : Form) : Need → Option Value → Prop
  | .required, member => ∃ v, member = some v ∧ form.Holds v
  | .optional, member => ∀ v, member = some v → v = .null ∨ form.Holds v
  | .filled _, member => ∀ v, member = some v → form.Holds v

/-- The members that an object may have, by name. -/
abbrev Table := List (String × Need × Form)

namespace Table

def names (table : Table) : List String := table.map (·.1)

def Met (table : Table) (ms : List (String × Value)) : Prop :=
  ∀ e ∈ table, e.2.1.Met e.2.2 (ms.lookup e.1)

/-- The members of the table among those that are written for `ms`; no key is repeated. -/
structure Written (table : Table) (ms ns : List (String × Value)) : Prop where
  once : (ns.map (·.1)).Nodup
  members : ∀ e ∈ table, e.2.1.Yields e.2.2.Written (ms.lookup e.1) (ns.lookup e.1)

end Table

namespace Form

def text : Form where
  Holds v := ∃ s, v = .text s
  Written v w := ∃ s, v = .text s ∧ w = .text s

def list (item : Form) : Form where
  Holds v := ∃ vs, v = .array vs ∧ ∀ x ∈ vs, item.Holds x
  Written v w := ∃ vs ws, v = .array vs ∧ w = .array ws ∧ List.Forall₂ item.Written vs ws

/-- An object with the members of the table. All other members stay as they are, up to the
order of members inside them. -/
def opened (table : Table) : Form where
  Holds v := ∃ ms, v = .object ms ∧ table.Met ms
  Written v w := ∃ ms ns, v = .object ms ∧ w = .object ns ∧ table.Written ms ns ∧
    ∀ key, key ∉ table.names → ns.lookup key = (ms.lookup key).map Value.sorted

/-- The members of an object, or the items of an array under the first of the names. -/
def Stands (names : List String) (v : Value) (ms : List (String × Value)) : Prop :=
  v = .object ms ∨ ∃ vs, v = .array vs ∧ vs.length ≤ names.length ∧ ms = names.zip vs

/-- An object with the members of the table, or an array of their values. No other members
are written. -/
def closed (table : Table) : Form where
  Holds v := ∃ ms, Stands table.names v ms ∧ table.Met ms
  Written v w := ∃ ms ns, Stands table.names v ms ∧ w = .object ns ∧ table.Written ms ns ∧
    ∀ key, key ∉ table.names → ns.lookup key = none

end Form

mutual

/-- The format of the values that are read by the shape. -/
def Shape.form : Shape → Form
  | .text _ objection =>
    ⟨fun v => ∃ s, v = .text s ∧ objection s = none,
      fun v w => ∃ s, v = .text s ∧ w = .text s⟩
  | .list item => .list item.form
  | .record _ .opened fields => .opened fields.form
  | .record _ .closed fields => .closed fields.form

def Fields.form : Fields → Table
  | .nil => []
  | .cons name need shape rest => (name, need, shape.form) :: rest.form

end

theorem Form.stands_object {names : List String} {ms ns : List (String × Value)} :
    Stands names (.object ms) ns ↔ ns = ms := by
  constructor
  · rintro (same | ⟨vs, same, _⟩)
    · exact (Value.object.inj same).symm
    · cases same
  · rintro rfl
    exact .inl rfl

theorem Form.stands_array {names : List String} {vs : List Value} {ns : List (String × Value)} :
    Stands names (.array vs) ns ↔ vs.length ≤ names.length ∧ ns = names.zip vs := by
  constructor
  · rintro (same | ⟨us, same, short, rfl⟩)
    · cases same
    · cases same
      exact ⟨short, rfl⟩
  · rintro ⟨short, rfl⟩
    exact .inr ⟨vs, rfl, short, rfl⟩

theorem Shape.form_anyText : Shape.anyText.form = Form.text := by
  simp [Shape.anyText, Shape.form, Form.text]

variable {fields : Fields} {ms out : List (String × Value)}

theorem Value.isNull_iff {v : Value} : v.isNull = true ↔ v = .null := by
  cases v <;> simp [Value.isNull]

theorem Need.met_some {need : Need} {form : Form} {v : Value} :
    need.Met form (some v) ↔ (need.isOptional && v.isNull) = true ∨ form.Holds v := by
  cases need <;> simp [Need.Met, Need.isOptional, Value.isNull_iff]

theorem Fields.form_names (fields : Fields) : fields.form.names = fields.names := by
  induction fields using Fields.spine with
  | nil => rfl
  | cons name need shape rest ih => exact congrArg (name :: ·) ih

/-! A value is kept by a shape when it has the form. -/

theorem mapM_eq_some {α β : Type} {f : α → Option β} {xs : List α} {ys : List β} :
    xs.mapM f = some ys ↔ List.Forall₂ (fun x y => f x = some y) xs ys := by
  induction xs generalizing ys with
  | nil => simp [eq_comm]
  | cons x xs ih =>
      simp only [List.mapM_cons, Option.bind_eq_bind, Option.bind_eq_some_iff, Option.pure_def,
        Option.some.injEq, ih, List.forall₂_cons_left_iff]
      constructor
      · rintro ⟨y, hy, ys, rest, rfl⟩
        exact ⟨y, ys, hy, rest, rfl⟩
      · rintro ⟨y, ys, hy, rest, rfl⟩
        exact ⟨y, hy, ys, rest, rfl⟩

theorem exists_forall₂ {α β : Type} {R : α → β → Prop} {xs : List α} :
    (∃ ys, List.Forall₂ R xs ys) ↔ ∀ x ∈ xs, ∃ y, R x y := by
  induction xs with
  | nil => simp
  | cons x xs ih =>
      rw [List.forall_mem_cons, ← ih]
      constructor
      · rintro ⟨ys, related⟩
        cases related with
        | cons first rest => exact ⟨⟨_, first⟩, _, rest⟩
      · rintro ⟨⟨y, first⟩, ys, rest⟩
        exact ⟨y :: ys, .cons first rest⟩

theorem exists_map {α β : Type} {f : α → β} {x : Option α} :
    (∃ b, x.map f = some b) ↔ ∃ a, x = some a := by
  cases x <;> simp

mutual

theorem Shape.holds_iff (shape : Shape) (v : Value) :
    (∃ w, shape.keep v = some w) ↔ shape.form.Holds v := by
  cases shape with
  | text expected objection => cases v <;> simp [Shape.keep, Shape.form]
  | list item =>
      cases v with
      | array vs =>
          have each : (∀ x ∈ vs, ∃ w, item.keep x = some w) ↔ ∀ x ∈ vs, item.form.Holds x :=
            forall₂_congr fun x _ => Shape.holds_iff item x
          rw [Shape.keep, exists_map]
          simp only [mapM_eq_some, exists_forall₂, each]
          simp [Shape.form, Form.list]
      | _ => simp [Shape.keep, Shape.form, Form.list]
  | record name style fields =>
      cases style with
      | opened =>
          cases v with
          | object ms =>
              rw [Shape.keep, exists_map, Fields.met_iff fields ms]
              simp [Shape.form, Form.opened]
          | _ => simp [Shape.keep, Shape.form, Form.opened]
      | closed =>
          cases v with
          | object ms =>
              rw [Shape.keep, exists_map, Fields.met_iff fields ms]
              simp [Shape.form, Form.closed, Form.stands_object]
          | array vs =>
              have met := Fields.met_iff fields (fields.names.zip vs)
              rw [Shape.keep]
              simp only [Shape.form, Form.closed, Form.stands_array, Fields.form_names]
              split
              · next short => simp [met, short]
              · next long => simp [long]
          | _ => simp [Shape.keep, Shape.form, Form.closed, Form.Stands]

theorem Fields.met_iff (fields : Fields) (ms : List (String × Value)) :
    (∃ out, fields.keep ms = some out) ↔ fields.form.Met ms := by
  cases fields with
  | nil => simp [Fields.keep, Fields.form, Table.Met]
  | cons name need shape rest =>
      have tail := Fields.met_iff rest ms
      have item := Shape.holds_iff shape
      rw [Fields.form, Table.Met, List.forall_mem_cons]
      cases found : ms.lookup name with
      | none =>
          rw [Fields.keep_of_absent found]
          cases need with
          | required => simp [Need.Met]
          | optional => simpa [Need.Met, Table.Met] using tail
          | filled w => simpa [Need.Met, exists_map, Table.Met] using tail
      | some v =>
          rw [Fields.keep_of_present found, Need.met_some, ← item v]
          split
          · next absent =>
            rw [tail]
            exact (and_iff_right (.inl absent)).symm
          · next present =>
            rw [or_iff_right present]
            refine Iff.trans ?_ (and_congr_right' tail)
            cases shape.keep v with
            | none => simp
            | some w => simp

end

/-! What is kept of a value is written for it. -/

/-- The first field is kept as its need says, and the others after it. -/
theorem Fields.exists_of_keep {name : String} {need : Need} {shape : Shape} {rest : Fields}
    (h : (Fields.cons name need shape rest).keep ms = some out) :
    ∃ member tail, need.Yields (fun v w => shape.keep v = some w) (ms.lookup name) member ∧
      rest.keep ms = some tail ∧ out = optionalMember name member ++ tail := by
  cases found : ms.lookup name with
  | none =>
      rw [keep_of_absent found] at h
      cases need with
      | required => cases h
      | optional => exact ⟨none, out, .absent, h, rfl⟩
      | filled w =>
          obtain ⟨tail, kept, rfl⟩ := Option.map_eq_some_iff.mp h
          exact ⟨some w, tail, .filled, kept, rfl⟩
  | some v =>
      rw [keep_of_present found] at h
      split at h
      · next absent =>
        obtain ⟨optional, null⟩ := Bool.and_eq_true_iff.mp absent
        cases Value.isNull_iff.mp null
        cases need with
        | optional => exact ⟨none, out, .null, h, rfl⟩
        | required => cases optional
        | filled w => cases optional
      · obtain ⟨w, first, later⟩ := Option.bind_eq_some_iff.mp h
        obtain ⟨tail, kept, rfl⟩ := Option.map_eq_some_iff.mp later
        exact ⟨some w, tail, .kept first, kept, rfl⟩

theorem Fields.keep_names (h : fields.keep ms = some out) :
    (out.map (·.1)).Sublist fields.names := by
  induction fields using Fields.spine generalizing out with
  | nil =>
      cases h
      exact List.Sublist.refl _
  | cons name need shape rest ih =>
      obtain ⟨member, tail, _, kept, rfl⟩ := exists_of_keep h
      cases member with
      | none => exact (ih kept).cons name
      | some w => exact (ih kept).cons_cons name

theorem lookup_optionalMember {key name : String} {member : Option Value} :
    (optionalMember name member ++ ms).lookup key =
      if key = name then member.or (ms.lookup key) else ms.lookup key := by
  cases member with
  | none => simp [optionalMember]
  | some w => exact lookup_cons_eq

theorem Need.Yields.mono {need : Need} {written written' : Value → Value → Prop}
    {member member' : Option Value} (h : need.Yields written member member')
    (each : ∀ v w, member = some v → written v w → written' v w) :
    need.Yields written' member member' := by
  cases h with
  | kept h => exact .kept (each _ _ rfl h)
  | null => exact .null
  | absent => exact .absent
  | filled => exact .filled

theorem forall₂_imp_of_mem {α β : Type} {R S : α → β → Prop} {xs : List α} {ys : List β}
    (related : List.Forall₂ R xs ys) (each : ∀ x ∈ xs, ∀ y, R x y → S x y) :
    List.Forall₂ S xs ys := by
  induction related with
  | nil => exact .nil
  | cons first _ ih =>
      obtain ⟨here, there⟩ := List.forall_mem_cons.mp each
      exact .cons (here _ first) (ih there)

/-- The other members, as an open record keeps them behind its fields. -/
theorem lookup_rest {names : List String} {key : String} (once : (ms.map (·.1)).Nodup) :
    (Value.sortedMembers [] (ms.filter fun m => m.1 ∉ names)).lookup key =
      if key ∈ names then none else (ms.lookup key).map Value.sorted := by
  rw [Value.lookup_sortedMembers (filter_once once), lookup_filter_apart, List.lookup_nil,
    Option.or_none]
  split <;> rfl

section Record

variable (once : fields.names.Nodup) (kept : fields.keep ms = some out)
  (yields : ∀ e ∈ fields.form, e.2.1.Yields e.2.2.Written (ms.lookup e.1) (out.lookup e.1))
include once kept yields

theorem Fields.written_closed : fields.form.Written ms out ∧
    ∀ key, key ∉ fields.form.names → out.lookup key = none := by
  have known := keep_names kept
  refine ⟨⟨once.sublist known, yields⟩, ?_⟩
  intro key hk
  rw [form_names] at hk
  exact lookup_eq_none.mpr fun member => hk (known.subset member)

theorem Fields.written_opened (single : (ms.map (·.1)).Nodup) :
    let others := Value.sortedMembers [] (ms.filter fun m => m.1 ∉ fields.names)
    fields.form.Written ms (out ++ others) ∧ ∀ key, key ∉ fields.form.names →
      (out ++ others).lookup key = (ms.lookup key).map Value.sorted := by
  intro others
  have ascending : others.Pairwise fun m n => m.1 < n.1 :=
    Value.sortedMembers_ascending List.Pairwise.nil
  have rest : ∀ key, others.lookup key =
      if key ∈ fields.names then none else (ms.lookup key).map Value.sorted :=
    fun key => lookup_rest single
  obtain ⟨⟨unrepeated, _⟩, unknown⟩ := Fields.written_closed once kept yields
  rw [form_names] at unknown ⊢
  refine ⟨⟨?_, ?_⟩, ?_⟩
  · rw [List.map_append]
    refine List.nodup_append.mpr ⟨unrepeated, ascending_nodup ascending, ?_⟩
    rintro key hk _ hm rfl
    have absent : others.lookup key = none := by
      rw [rest, if_pos ((keep_names kept).subset hk)]
    exact lookup_eq_none.mp absent hm
  · intro e he
    have hk : e.1 ∈ fields.names := form_names fields ▸ List.mem_map.mpr ⟨e, he, rfl⟩
    rw [List.lookup_append, rest, if_pos hk, Option.or_none]
    exact yields e he
  · intro key hk
    rw [List.lookup_append, unknown key hk, Option.none_or, rest, if_neg hk]

end Record

mutual

theorem Shape.written_of_keep (room : Nat) (shape : Shape) (v w : Value)
    (sound : shape.Sound room) (single : v.Single) (h : shape.keep v = some w) :
    shape.form.Written v w := by
  cases shape with
  | text expected objection =>
      cases v with
      | text s =>
          rw [Shape.keep] at h
          split at h
          · cases h
            exact ⟨s, rfl, rfl⟩
          · cases h
      | _ => cases h
  | list item =>
      cases v with
      | array vs =>
          obtain ⟨ws, kept, rfl⟩ := Option.map_eq_some_iff.mp h
          refine ⟨vs, ws, rfl, rfl, forall₂_imp_of_mem (mapM_eq_some.mp kept) ?_⟩
          intro x hx y kept
          exact Shape.written_of_keep (room - 1) item x y sound
            (Value.singleItems_iff.mp single x hx) kept
      | _ => cases h
  | record name style fields =>
      have once := Fields.Sound.names_nodup sound
      have yields := fun ms out => Fields.yields_of_keep (room - 1) fields ms out sound
      cases v with
      | object ms =>
          have singles := Value.singleMembers_iff.mp single.2
          cases style with
          | opened =>
              obtain ⟨known, kept, rfl⟩ := Option.map_eq_some_iff.mp h
              have written :=
                Fields.written_opened once kept (yields ms known singles kept) single.1
              exact ⟨ms, _, rfl, rfl, written⟩
          | closed =>
              obtain ⟨known, kept, rfl⟩ := Option.map_eq_some_iff.mp h
              have written := Fields.written_closed once kept (yields ms known singles kept)
              exact ⟨ms, known, .inl rfl, rfl, written⟩
      | array vs =>
          cases style with
          | opened => cases h
          | closed =>
              rw [Shape.keep] at h
              split at h
              · next short =>
                obtain ⟨known, kept, rfl⟩ := Option.map_eq_some_iff.mp h
                have singles : ∀ m ∈ fields.names.zip vs, m.2.Single :=
                  fun m hm => Value.singleItems_iff.mp single m.2 (List.of_mem_zip hm).2
                have written := Fields.written_closed once kept (yields _ known singles kept)
                refine ⟨fields.names.zip vs, known, Form.stands_array.mpr ?_, rfl, written⟩
                rw [Fields.form_names]
                exact ⟨short, rfl⟩
              · cases h
      | _ => cases h

theorem Fields.yields_of_keep (room : Nat) (fields : Fields) (ms out : List (String × Value))
    (sound : fields.Sound room) (single : ∀ m ∈ ms, m.2.Single) (h : fields.keep ms = some out) :
    ∀ e ∈ fields.form, e.2.1.Yields e.2.2.Written (ms.lookup e.1) (out.lookup e.1) := by
  cases fields with
  | nil => exact List.forall_mem_nil _
  | cons name need shape rest =>
      obtain ⟨apart, _, first, later⟩ := sound
      obtain ⟨member, tail, yields, kept, rfl⟩ := Fields.exists_of_keep h
      have others := Fields.yields_of_keep room rest ms tail later single kept
      refine List.forall_mem_cons.mpr ⟨?_, ?_⟩
      · have unknown : tail.lookup name = none :=
          lookup_eq_none.mpr fun hn => apart ((Fields.keep_names kept).subset hn)
        dsimp only
        rw [lookup_optionalMember, if_pos rfl, unknown, Option.or_none]
        exact yields.mono fun v w found => Shape.written_of_keep room shape v w first
          (single _ (mem_of_lookup_eq_some found))
      · intro e he
        have hn : e.1 ∈ rest.names := Fields.form_names rest ▸ List.mem_map.mpr ⟨e, he, rfl⟩
        have other : e.1 ≠ name := fun same => apart (same ▸ hn)
        rw [lookup_optionalMember, if_neg other]
        exact others e he

end

/-! Reading texts. -/

/-- The text says the value and nothing else, whatever its layout. -/
def Value.SaidBy (v : Value) (s : String) : Prop :=
  Source.ofText s = ⟨v.draft Value.textSurplus, false⟩

/-- The texts that say a value are read as what the shape keeps of it. -/
theorem Shape.readText_iff {shape : Shape} {s : String} {v w : Value}
    (sound : shape.Sound depthLimit) (single : v.Single) (shallow : v.depth ≤ depthLimit)
    (said : v.SaidBy s) : shape.readText s = .ok w ↔ shape.keep v = some w := by
  rw [← Shape.read_draft_iff Value.textSurplus depthLimit shape v w sound single shallow, readText,
    said, Source.read]
  cases shape.read depthLimit (v.draft Value.textSurplus) with
  | error fault => exact iff_of_false nofun nofun
  | ok w => exact Iff.rfl

end AssessmentPlans.Json
