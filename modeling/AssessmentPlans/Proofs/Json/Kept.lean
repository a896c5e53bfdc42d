import AssessmentPlans.Proofs.Json.Sorted

/-! What a shape keeps of a value, said of the members by their keys. Reading the draft of a
value comes to this, wherever its members stand. -/
namespace AssessmentPlans.Json

def Value.isNull : Value → Bool
  | .null => true
  | _ => false

mutual

/-- What the shape keeps of the value, if the value has this shape. -/
def Shape.keep : Shape → Value → Option Value
  | .text _ objection, v =>
    match v with
    | .text s => if objection s = none then some (.text s) else none
    | _ => none
  | .list item, v =>
    match v with
    | .array vs => (vs.mapM item.keep).map .array
    | _ => none
  | .record _ style fields, v =>
    match v, style with
    | .object ms, .opened => (fields.keep ms).map fun known =>
      .object (known ++ Value.sortedMembers [] (ms.filter fun m => m.1 ∉ fields.names))
    | .object ms, .closed => (fields.keep ms).map .object
    | .array vs, .closed =>
      if vs.length ≤ fields.names.length then (fields.keep (fields.names.zip vs)).map .object
      else none
    | _, _ => none

/-- The fields among the members, in the order of their declaration. -/
def Fields.keep : Fields → List (String × Value) → Option (List (String × Value))
  | .nil, _ => some []
  | .cons name need shape rest, ms =>
    match ms.lookup name, need with
    | some v, need =>
      if need.isOptional && v.isNull then rest.keep ms
      else (shape.keep v).bind fun w => (rest.keep ms).map ((name, w) :: ·)
    | none, .required => none
    | none, .optional => rest.keep ms
    | none, .filled w => (rest.keep ms).map ((name, w) :: ·)

end

section Cons

variable {name : String} {need : Need} {shape : Shape} {rest : Fields} {ms : List (String × Value)}

theorem Fields.keep_of_absent (absent : ms.lookup name = none) :
    (Fields.cons name need shape rest).keep ms =
      match need with
      | .required => none
      | .optional => rest.keep ms
      | .filled w => (rest.keep ms).map ((name, w) :: ·) := by
  cases need <;> simp only [Fields.keep, absent]

theorem Fields.keep_of_present {v : Value} (present : ms.lookup name = some v) :
    (Fields.cons name need shape rest).keep ms =
      if need.isOptional && v.isNull then rest.keep ms
      else (shape.keep v).bind fun w => (rest.keep ms).map ((name, w) :: ·) := by
  cases need <;> simp only [Fields.keep, present]

end Cons

/-- Members that are no fields do not count. -/
theorem Fields.keep_congr {fields : Fields} {ms ns : List (String × Value)}
    (same : ∀ name ∈ fields.names, ms.lookup name = ns.lookup name) :
    fields.keep ms = fields.keep ns := by
  induction fields using Fields.spine with
  | nil => rfl
  | cons name need shape rest ih =>
      obtain ⟨here, there⟩ := List.forall_mem_cons.mp same
      cases found : ms.lookup name with
      | none => rw [keep_of_absent found, keep_of_absent (here ▸ found), ih there]
      | some v => rw [keep_of_present found, keep_of_present (here ▸ found), ih there]

variable {surplus : Nat → Fault} {room : Nat} {style : Style} {fields : Fields}
  {ms : List (String × Value)}

theorem Value.isNull_draft (v : Value) : (v.draft surplus).isNull = v.isNull := by
  cases v <;> rfl

theorem Value.isNull_sorted (v : Value) : v.sorted.isNull = v.isNull := by
  cases v <;> rfl

/-- The members of the object that is being read, none of which has been met twice. -/
structure Legible (room : Nat) (ms : List (String × Value)) : Prop where
  once : (ms.map (·.1)).Nodup
  single : ∀ m ∈ ms, m.2.Single
  shallow : ∀ m ∈ ms, m.2.depth ≤ room

theorem Legible.tail {m : String × Value} (h : Legible room (m :: ms)) : Legible room ms :=
  ⟨(List.nodup_cons.mp h.once).2, (List.forall_mem_cons.mp h.single).2,
    (List.forall_mem_cons.mp h.shallow).2⟩

theorem Legible.lookup {key : String} {v : Value} (h : Legible room ms)
    (found : ms.lookup key = some v) : v.Single ∧ v.depth ≤ room :=
  ⟨h.single _ (mem_of_lookup_eq_some found), h.shallow _ (mem_of_lookup_eq_some found)⟩

theorem Legible.fresh {α : Type} {m : String × Value} {value : α} {met : List (String × α)}
    (h : Legible room (m :: ms)) (fresh : ∀ n ∈ m :: ms, met.lookup n.1 = none) :
    ∀ n ∈ ms, ((m.1, value) :: met).lookup n.1 = none := by
  intro n hn
  have other : n.1 ≠ m.1 := fun same =>
    (List.nodup_cons.mp h.once).1 (List.mem_map.mpr ⟨n, hn, same⟩)
  rw [lookup_cons_eq, if_neg other]
  exact fresh n (List.mem_cons_of_mem m hn)

/-! Gathering the members of an object. -/

/-- What is known of a field afterwards is what its member is read as, if there is one. -/
def Fields.Met (fields : Fields) (room : Nat) (surplus : Nat → Fault)
    (ms : List (String × Value)) (before after : List (String × Option Value))
    (name : String) : Prop :=
  match ms.lookup name with
  | none => after.lookup name = before.lookup name
  | some v => ∃ r, fields.readField room name (v.draft surplus) = some (.ok r) ∧
      after.lookup name = some r

theorem Fields.met_cons {name key : String} {need : Need} {shape : Shape}
    {before after : List (String × Option Value)} (other : key ≠ name) :
    (Fields.cons name need shape fields).Met room surplus ms before after key ↔
      fields.Met room surplus ms before after key := by
  simp only [Fields.Met, Fields.readField, if_neg other]

/-- The other members that are kept besides those that are there. -/
def Style.rest (fields : Fields) (ms others : List (String × Value)) :
    Style → List (String × Value)
  | .opened => Value.sortedMembers others (ms.filter fun m => m.1 ∉ fields.names)
  | .closed => others

/-- Members that are no fields do not stand in the way. -/
theorem gather_unknown {key : String} {v : Value} {g : Gathered}
    (ds : List (Except Fault String × Draft)) (shallow : v.depth ≤ room)
    (unknown : key ∉ fields.names) :
    gather style room (fields.readField room) g ((.ok key, v.draft surplus) :: ds) =
      gather style room (fields.readField room)
        { g with others := style.rest fields [(key, v)] g.others } ds := by
  have other : fields.readField room key (v.draft surplus) = none :=
    Fields.readField_eq_none.mpr unknown
  rw [gather]
  cases style with
  | opened =>
      simp [bind, Except.bind, other, Value.value_draft_sorted surplus room v shallow, Style.rest,
        unknown, Value.sortedMembers]
  | closed => simp [bind, Except.bind, other, Value.skip_draft, Style.rest]

theorem gather_field {key : String} {d : Draft} {g : Gathered}
    {result : Except Fault (Option Value)} (ds : List (Except Fault String × Draft))
    (fresh : g.known.lookup key = none) (field : fields.readField room key d = some result) :
    gather style room (fields.readField room) g ((.ok key, d) :: ds) =
      result >>= fun v =>
        gather style room (fields.readField room) { g with known := (key, v) :: g.known } ds := by
  rw [gather]
  simp [bind, Except.bind, field, fresh]

theorem gather_met {met : List (String × Option Value)} {others : List (String × Value)}
    {g : Gathered} (legible : Legible room ms) (fresh : ∀ m ∈ ms, met.lookup m.1 = none)
    (h : gather style room (fields.readField room) ⟨met, others⟩
      (Value.draftMembers surplus ms) = .ok g) :
    (∀ name ∈ fields.names, fields.Met room surplus ms met g.known name) ∧
      g.others = style.rest fields ms others := by
  induction ms generalizing met others with
  | nil =>
      cases h
      exact ⟨fun name _ => rfl, by cases style <;> rfl⟩
  | cons m ms ih =>
      obtain ⟨key, v⟩ := m
      have new := fresh _ List.mem_cons_self
      rw [Value.draftMembers] at h
      by_cases known : key ∈ fields.names
      · obtain ⟨result, field⟩ := Option.ne_none_iff_exists'.mp
          (mt Fields.readField_eq_none.mp (not_not_intro known))
        rw [gather_field _ new field] at h
        obtain ⟨r, rfl, h⟩ := bind_eq_ok.mp h
        obtain ⟨mets, rest⟩ := ih legible.tail (legible.fresh fresh) h
        constructor
        · intro name hn
          have later := mets name hn
          rw [Fields.Met, lookup_cons_eq] at later ⊢
          by_cases same : name = key
          · subst same
            rw [lookup_eq_none.mpr (List.nodup_cons.mp legible.once).1, if_pos rfl] at later
            rw [if_pos rfl]
            exact ⟨r, field, later⟩
          · rwa [if_neg same] at later ⊢
        · rw [rest]
          cases style <;> simp [Style.rest, known]
      · rw [gather_unknown _ (legible.shallow _ List.mem_cons_self) known] at h
        obtain ⟨mets, rest⟩ := ih legible.tail (fun n hn => fresh n (List.mem_cons_of_mem _ hn)) h
        constructor
        · intro name hn
          have other : name ≠ key := fun same => known (same ▸ hn)
          rw [Fields.Met, lookup_cons_eq, if_neg other]
          exact mets name hn
        · rw [rest]
          cases style <;> simp [Style.rest, known, Value.sortedMembers]

/-- Gathering succeeds where every field among the members can be read. -/
theorem exists_gather (style : Style) {met : List (String × Option Value)}
    {others : List (String × Value)} (legible : Legible room ms)
    (fresh : ∀ m ∈ ms, met.lookup m.1 = none)
    (each : ∀ m ∈ ms, m.1 ∈ fields.names →
      ∃ r, fields.readField room m.1 (m.2.draft surplus) = some (.ok r)) :
    ∃ g, gather style room (fields.readField room) ⟨met, others⟩
      (Value.draftMembers surplus ms) = .ok g := by
  induction ms generalizing met others with
  | nil => exact ⟨_, rfl⟩
  | cons m ms ih =>
      obtain ⟨first, later⟩ := List.forall_mem_cons.mp each
      rw [Value.draftMembers]
      by_cases known : m.1 ∈ fields.names
      · obtain ⟨r, field⟩ := first known
        rw [gather_field _ (fresh m List.mem_cons_self) field]
        exact ih legible.tail (legible.fresh fresh) later
      · rw [gather_unknown _ (legible.shallow m List.mem_cons_self) known]
        exact ih legible.tail (fun n hn => fresh n (List.mem_cons_of_mem _ hn)) later

/-! Reading drafts of values. -/

/-- Two readers that agree on each item agree on a list. -/
theorem mapM_ok_iff {ε α β γ : Type} {f : β → Except ε γ} {g : α → β} {h : α → Option γ}
    {xs : List α} (each : ∀ x ∈ xs, ∀ y, f (g x) = .ok y ↔ h x = some y) (ys : List γ) :
    (xs.map g).mapM f = .ok ys ↔ xs.mapM h = some ys := by
  induction xs generalizing ys with
  | nil => simp [pure, Except.pure]
  | cons x xs ih =>
      obtain ⟨first, later⟩ := List.forall_mem_cons.mp each
      simp only [List.map_cons, List.mapM_cons, bind_eq_ok, pure_eq_ok, ih later, first,
        Option.bind_eq_bind, Option.bind_eq_some_iff, Option.pure_def, Option.some.injEq]

/-- An object is read as the shape keeps it if its fields are assembled so. -/
theorem Shape.read_object_iff {name : String} {w : Value} (legible : Legible room ms)
    (assembled : ∀ known out, (∀ key ∈ fields.names, fields.Met room surplus ms [] known key) →
      (fields.assemble known = .ok out ↔ fields.keep ms = some out))
    (each : ∀ out, fields.keep ms = some out → ∀ m ∈ ms, m.1 ∈ fields.names →
      ∃ r, fields.readField room m.1 (m.2.draft surplus) = some (.ok r)) :
    (Shape.record name style fields).read (room + 1) ((Value.object ms).draft surplus) = .ok w ↔
      (Shape.record name style fields).keep (.object ms) = some w := by
  have fresh : ∀ m ∈ ms, ([] : List (String × Option Value)).lookup m.1 = none := fun _ _ => rfl
  have kept : (Shape.record name style fields).keep (.object ms) = some w ↔
      ∃ known, fields.keep ms = some known ∧ .object (known ++ style.rest fields ms []) = w := by
    cases style <;> simp [keep, Style.rest]
  rw [kept, Value.draft, read, bind_eq_ok]
  constructor
  · rintro ⟨g, gathered, h⟩
    obtain ⟨_, _, h⟩ := bind_eq_ok.mp h
    obtain ⟨known, done, h⟩ := bind_eq_ok.mp h
    obtain ⟨mets, rest⟩ := gather_met legible fresh gathered
    rw [rest] at h
    exact ⟨known, (assembled g.known known mets).mp done, pure_eq_ok.mp h⟩
  · rintro ⟨known, found, rfl⟩
    obtain ⟨g, gathered⟩ := exists_gather style legible fresh (each known found)
    obtain ⟨mets, rest⟩ := gather_met legible fresh gathered
    have done := (assembled g.known known mets).mpr found
    refine ⟨g, gathered, bind_eq_ok.mpr ⟨(), rfl, bind_eq_ok.mpr ⟨known, done, ?_⟩⟩⟩
    rw [rest]
    rfl

/-- A list is read as the shape keeps it if its items are read as the fields in order. -/
theorem Shape.read_list_iff {name : String} {vs : List Value} {w : Value}
    (inOrder : ∀ out, fields.readInOrder room (tooShort name fields.names.length) none
        (surplus vs.length) 0 (Value.draftItems surplus vs) = .ok out ↔
      vs.length ≤ fields.names.length ∧ fields.keep (fields.names.zip vs) = some out) :
    (Shape.record name .closed fields).read (room + 1) ((Value.array vs).draft surplus) = .ok w ↔
      (Shape.record name .closed fields).keep (.array vs) = some w := by
  rw [Value.draft, read, bind_eq_ok, keep]
  simp only [inOrder, pure_eq_ok]
  split
  · next short => simp only [short, true_and, Option.map_eq_some_iff]
  · next long => simp [long]

mutual

/-- Reading the draft of a value keeps of it what the shape keeps. -/
theorem Shape.read_draft_iff (surplus : Nat → Fault) (room : Nat) (shape : Shape) (v w : Value)
    (sound : shape.Sound room) (single : v.Single) (shallow : v.depth ≤ room) :
    shape.read room (v.draft surplus) = .ok w ↔ shape.keep v = some w := by
  cases shape with
  | text expected objection =>
      cases v with
      | text s => cases fine : objection s <;> simp [Shape.read, Shape.keep, Value.draft, fine]
      | _ => simp [Shape.read, Shape.keep, Value.draft]
  | list item =>
      cases v with
      | array vs =>
          cases room with
          | zero => exact absurd shallow (Nat.not_succ_le_zero _)
          | succ room =>
              have items := Value.depthOfItems_le_iff.mp (Nat.le_of_succ_le_succ shallow)
              have each : ∀ x ∈ vs, ∀ y, item.read room (x.draft surplus) = .ok y ↔
                  item.keep x = some y := fun x hx y =>
                Shape.read_draft_iff surplus room item x y sound
                  (Value.singleItems_iff.mp single x hx) (items x hx)
              rw [Shape.keep, Value.draft, Value.draftItems_eq_map, Shape.read, bind_eq_ok,
                Option.map_eq_some_iff]
              exact exists_congr fun ws => and_congr (mapM_ok_iff each ws) pure_eq_ok
      | _ => simp [Shape.read, Shape.keep, Value.draft]
  | record name style fields =>
      cases v with
      | object ms =>
          cases room with
          | zero => exact absurd shallow (Nat.not_succ_le_zero _)
          | succ room =>
              have legible : Legible room ms := ⟨single.1, Value.singleMembers_iff.mp single.2,
                Value.depthOfMembers_le_iff.mp (Nat.le_of_succ_le_succ shallow)⟩
              exact Shape.read_object_iff legible
                (fun known out =>
                  Fields.assemble_iff surplus room fields ms known out sound legible)
                (fun out => Fields.readField_of_keep surplus room fields ms out sound legible)
      | array vs =>
          cases style with
          | opened => simp [Shape.read, Shape.keep, Value.draft]
          | closed =>
              cases room with
              | zero => exact absurd shallow (Nat.not_succ_le_zero _)
              | succ room =>
                  have items := Value.depthOfItems_le_iff.mp (Nat.le_of_succ_le_succ shallow)
                  exact Shape.read_list_iff fun out =>
                    Fields.readInOrder_iff surplus room _ _ fields 0 vs out sound
                      (Value.singleItems_iff.mp single) items
      | _ => simp [Shape.read, Shape.keep, Value.draft]

theorem Fields.assemble_iff (surplus : Nat → Fault) (room : Nat) (fields : Fields)
    (ms : List (String × Value)) (known : List (String × Option Value))
    (out : List (String × Value)) (sound : fields.Sound room) (legible : Legible room ms)
    (met : ∀ name ∈ fields.names, fields.Met room surplus ms [] known name) :
    fields.assemble known = .ok out ↔ fields.keep ms = some out := by
  cases fields with
  | nil => simp [Fields.assemble, Fields.keep]
  | cons name need shape rest =>
      obtain ⟨apart, _, first, later⟩ := sound
      obtain ⟨here, there⟩ := List.forall_mem_cons.mp met
      have tail : ∀ out, rest.assemble known = .ok out ↔ rest.keep ms = some out := by
        intro out
        apply Fields.assemble_iff surplus room rest ms known out later legible
        intro n hn
        have other : n ≠ name := fun same => apart (same ▸ hn)
        exact (Fields.met_cons other).mp (there n hn)
      rw [Fields.Met] at here
      cases found : ms.lookup name with
      | none =>
          rw [found] at here
          rw [Fields.keep_of_absent found]
          cases need with
          | required => simp [Fields.assemble, here]
          | optional => simp only [Fields.assemble, here, List.lookup_nil, tail]
          | filled w =>
              simp only [Fields.assemble, here, List.lookup_nil, bind_eq_ok, pure_eq_ok, tail,
                Option.map_eq_some_iff]
      | some v =>
          rw [found] at here
          obtain ⟨r, read, here⟩ := here
          rw [Fields.readField, if_pos rfl, Value.isNull_draft] at read
          obtain ⟨single, shallow⟩ := legible.lookup found
          have item := fun w =>
            Shape.read_draft_iff surplus room shape v w first single shallow
          rw [Fields.keep_of_present found]
          split
          · next absent =>
            rw [if_pos absent] at read
            cases read
            simp only [Fields.assemble, here, tail]
          · next present =>
            rw [if_neg present] at read
            obtain ⟨w, done, rfl⟩ := map_eq_ok.mp (Option.some.inj read)
            rw [(item w).mp done, Option.bind_some]
            simp only [Fields.assemble, here, bind_eq_ok, pure_eq_ok, tail, Option.map_eq_some_iff]

theorem Fields.readField_of_keep (surplus : Nat → Fault) (room : Nat) (fields : Fields)
    (ms out : List (String × Value)) (sound : fields.Sound room) (legible : Legible room ms)
    (h : fields.keep ms = some out) : ∀ m ∈ ms, m.1 ∈ fields.names →
      ∃ r, fields.readField room m.1 (m.2.draft surplus) = some (.ok r) := by
  cases fields with
  | nil => exact fun m _ named => absurd named List.not_mem_nil
  | cons name need shape rest =>
      obtain ⟨apart, _, first, later⟩ := sound
      intro m hm named
      have tail : ∀ out, rest.keep ms = some out → m.1 ≠ name →
          ∃ r, (Fields.cons name need shape rest).readField room m.1 (m.2.draft surplus) =
            some (.ok r) := by
        intro out h other
        rw [Fields.readField, if_neg other]
        exact Fields.readField_of_keep surplus room rest ms out later legible h m hm
          ((List.mem_cons.mp named).resolve_left other)
      by_cases same : m.1 = name
      · subst same
        have found := lookup_of_mem legible.once hm
        obtain ⟨single, shallow⟩ := legible.lookup found
        rw [Fields.keep_of_present found] at h
        rw [Fields.readField, if_pos rfl, Value.isNull_draft]
        split at h
        · next absent => exact ⟨none, by rw [if_pos absent]⟩
        · next present =>
          obtain ⟨w, kept, _⟩ := Option.bind_eq_some_iff.mp h
          have read := (Shape.read_draft_iff surplus room shape m.2 w first single shallow).mpr kept
          exact ⟨some w, by rw [if_neg present, read]; rfl⟩
      · cases found : ms.lookup name with
        | none =>
            rw [Fields.keep_of_absent found] at h
            cases need with
            | required => cases h
            | optional => exact tail out h same
            | filled w =>
                obtain ⟨out, h, _⟩ := Option.map_eq_some_iff.mp h
                exact tail out h same
        | some v =>
            rw [Fields.keep_of_present found] at h
            split at h
            · exact tail out h same
            · obtain ⟨w, _, h⟩ := Option.bind_eq_some_iff.mp h
              obtain ⟨out, h, _⟩ := Option.map_eq_some_iff.mp h
              exact tail out h same

theorem Fields.readInOrder_iff (surplus : Nat → Fault) (room : Nat) (short : Nat → Fault)
    (excess : Fault) (fields : Fields) (n : Nat) (vs : List Value) (out : List (String × Value))
    (sound : fields.Sound room) (single : ∀ v ∈ vs, v.Single) (shallow : ∀ v ∈ vs, v.depth ≤ room) :
    fields.readInOrder room short none excess n (Value.draftItems surplus vs) = .ok out ↔
      vs.length ≤ fields.names.length ∧ fields.keep (fields.names.zip vs) = some out := by
  cases fields with
  | nil =>
      cases vs with
      | nil => simp [Value.draftItems, Fields.readInOrder, Fields.names, Fields.keep]
      | cons v vs => simp [Value.draftItems, Fields.readInOrder, Fields.names]
  | cons name need shape rest =>
      obtain ⟨apart, _, first, later⟩ := sound
      cases vs with
      | nil =>
          have tail := fun out => Fields.readInOrder_iff surplus room short excess rest (n + 1) [] out
            later single shallow
          rw [List.zip_nil_right, Fields.keep_of_absent rfl]
          simp only [Value.draftItems, List.length_nil, Nat.zero_le, List.zip_nil_right, true_and]
            at tail ⊢
          simp only [Fields.readInOrder, Draft.closing, bind_eq_ok, exists_const, true_and]
          cases need with
          | required => simp
          | optional => exact tail out
          | filled w => simp only [bind_eq_ok, pure_eq_ok, tail, Option.map_eq_some_iff]
      | cons v vs =>
          obtain ⟨single, singles⟩ := List.forall_mem_cons.mp single
          obtain ⟨shallow, shallows⟩ := List.forall_mem_cons.mp shallow
          have tail := fun out => Fields.readInOrder_iff surplus room short excess rest (n + 1) vs
            out later singles shallows
          have item := fun w => Shape.read_draft_iff surplus room shape v w first single shallow
          have other : rest.keep ((name, v) :: rest.names.zip vs) = rest.keep (rest.names.zip vs) := by
            apply Fields.keep_congr
            intro key hk
            have different : key ≠ name := fun same => apart (same ▸ hk)
            rw [lookup_cons_eq, if_neg different]
          rw [Fields.names, List.zip_cons_cons, Fields.keep_of_present List.lookup_cons_self, other,
            Value.draftItems, Fields.readInOrder, Value.isNull_draft, List.length_cons,
            List.length_cons, Nat.succ_le_succ_iff]
          split
          · exact tail out
          · simp only [bind_eq_ok, pure_eq_ok, tail, item, Option.bind_eq_some_iff,
              Option.map_eq_some_iff]
            constructor
            · rintro ⟨w, kept, out, ⟨short, others⟩, rfl⟩
              exact ⟨short, w, kept, out, others, rfl⟩
            · rintro ⟨short, w, kept, out, others, rfl⟩
              exact ⟨w, kept, out, ⟨short, others⟩, rfl⟩

end

/-! The order of the members. -/

theorem mapM_map_congr {α β γ : Type} {f : β → Option γ} {g : α → β} {h : α → Option γ}
    {xs : List α} (each : ∀ x ∈ xs, f (g x) = h x) : (xs.map g).mapM f = xs.mapM h := by
  induction xs with
  | nil => rfl
  | cons x xs ih =>
      obtain ⟨first, later⟩ := List.forall_mem_cons.mp each
      rw [List.map_cons, List.mapM_cons, List.mapM_cons, first, ih later]

/-- The members that are no fields come out in the same order, in whatever order they stand. -/
theorem rest_sorted {names : List String} (once : (ms.map (·.1)).Nodup) :
    Value.sortedMembers [] ((Value.sortedMembers [] ms).filter fun m => m.1 ∉ names) =
      Value.sortedMembers [] (ms.filter fun m => m.1 ∉ names) := by
  have ascending : ∀ ns, (Value.sortedMembers [] ns).Pairwise fun m n => m.1 < n.1 :=
    fun ns => Value.sortedMembers_ascending List.Pairwise.nil
  refine ascending_ext (ascending _) (ascending _) ?_
  intro key
  rw [Value.lookup_sortedMembers (filter_once (ascending_nodup (ascending ms))),
    Value.lookup_sortedMembers (filter_once once), lookup_filter_apart, lookup_filter_apart,
    Value.lookup_sortedMembers once]
  by_cases known : key ∈ names
  · rw [if_pos known, if_pos known]
  · rw [if_neg known, if_neg known]
    cases ms.lookup key with
    | none => rfl
    | some v => simp [Value.sorted_sorted]

mutual

/-- In which order the members of its objects stand does not matter to what is kept. -/
theorem Shape.keep_sorted (shape : Shape) (v : Value) (single : v.Single) :
    shape.keep v.sorted = shape.keep v := by
  cases shape with
  | text expected objection => cases v <;> rfl
  | list item =>
      cases v with
      | array vs =>
          rw [Value.sorted, Value.sortedItems_eq_map, Shape.keep, Shape.keep]
          congr 1
          exact mapM_map_congr fun x hx =>
            Shape.keep_sorted item x (Value.singleItems_iff.mp single x hx)
      | _ => rfl
  | record name style fields =>
      cases v with
      | object ms =>
          have members := Fields.keep_sorted fields ms (Value.sortedMembers [] ms)
            (Value.singleMembers_iff.mp single.2)
            fun key => by rw [Value.lookup_sortedMembers single.1, List.lookup_nil, Option.or_none]
          cases style with
          | opened => rw [Value.sorted, Shape.keep, Shape.keep, members, rest_sorted single.1]
          | closed => rw [Value.sorted, Shape.keep, Shape.keep, members]
      | array vs =>
          cases style with
          | opened => rfl
          | closed =>
              have members := Fields.keep_sorted fields (fields.names.zip vs)
                (fields.names.zip (vs.map Value.sorted))
                (fun m hm => Value.singleItems_iff.mp single m.2 (List.of_mem_zip hm).2)
                fun key => by rw [List.zip_map_right]; exact lookup_map
              rw [Value.sorted, Value.sortedItems_eq_map, Shape.keep, Shape.keep, List.length_map,
                members]
      | _ => rfl

theorem Fields.keep_sorted (fields : Fields) (ms ns : List (String × Value))
    (single : ∀ m ∈ ms, m.2.Single)
    (same : ∀ name, ns.lookup name = (ms.lookup name).map Value.sorted) :
    fields.keep ns = fields.keep ms := by
  cases fields with
  | nil => rfl
  | cons name need shape rest =>
      have tail := Fields.keep_sorted rest ms ns single same
      cases found : ms.lookup name with
      | none =>
          rw [Fields.keep_of_absent found, Fields.keep_of_absent (by rw [same, found]; rfl), tail]
      | some v =>
          have item := Shape.keep_sorted shape v (single _ (mem_of_lookup_eq_some found))
          rw [Fields.keep_of_present found, Fields.keep_of_present (by rw [same, found]; rfl), tail,
            item, Value.isNull_sorted]

end

end AssessmentPlans.Json
