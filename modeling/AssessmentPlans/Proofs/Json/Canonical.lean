import AssessmentPlans.Proofs.Except
import AssessmentPlans.Proofs.Json.Written

/-! Values as they are read: every object has its keys in ascending order, and there
was room for all containers. Such a value is read back from its draft. -/
namespace AssessmentPlans.Json

section Members

variable {α : Type} {key : String} {value : α} {ms : List (String × α)}

theorem mem_setMember {m : String × α} (h : m ∈ setMember key value ms) :
    m = (key, value) ∨ m ∈ ms := by
  induction ms with
  | nil => exact .inl (List.mem_singleton.mp h)
  | cons n ms ih =>
      unfold setMember at h
      split at h
      · exact List.mem_cons.mp h
      · split at h
        · exact (List.mem_cons.mp h).imp_right (List.mem_cons_of_mem n)
        · rcases List.mem_cons.mp h with rfl | later
          · exact .inr List.mem_cons_self
          · exact (ih later).imp_right (List.mem_cons_of_mem n)

theorem setMember_ascending (h : ms.Pairwise fun m n => m.1 < n.1) :
    (setMember key value ms).Pairwise fun m n => m.1 < n.1 := by
  induction ms with
  | nil => exact List.pairwise_singleton _ _
  | cons n ms ih =>
      obtain ⟨above, rest⟩ := List.pairwise_cons.mp h
      unfold setMember
      split
      · next lt =>
        refine List.pairwise_cons.mpr ⟨?_, h⟩
        intro m hm
        rcases List.mem_cons.mp hm with rfl | later
        · exact lt
        · exact String.lt_trans lt (above m later)
      · split
        · next eq =>
          refine List.pairwise_cons.mpr ⟨?_, rest⟩
          intro m hm
          rw [eq]
          exact above m hm
        · next notLt ne =>
          refine List.pairwise_cons.mpr ⟨?_, ih rest⟩
          intro m hm
          rcases mem_setMember hm with rfl | old
          · refine Decidable.byContradiction fun notGt => ne ?_
            exact String.le_antisymm (String.not_lt.mp notGt) (String.not_lt.mp notLt)
          · exact above m old

/-- A key above all others goes to the end. -/
theorem setMember_append (h : ∀ m ∈ ms, m.1 < key) :
    setMember key value ms = ms ++ [(key, value)] := by
  induction ms with
  | nil => rfl
  | cons n ms ih =>
      obtain ⟨above, rest⟩ := List.forall_mem_cons.mp h
      have notLt : ¬key < n.1 := fun lt => String.lt_irrefl _ (String.lt_trans lt above)
      have ne : key ≠ n.1 := (String.ne_of_lt above).symm
      rw [setMember, if_neg notLt, if_neg ne, ih rest]
      rfl

end Members

mutual

/-- The objects of the value have their keys in ascending order, and not more
containers stand inside each other than there is room for. -/
def Value.Canonical (room : Nat) : Value → Prop
  | .array vs => ∃ inner, room = inner + 1 ∧ CanonicalItems inner vs
  | .object ms => ∃ inner, room = inner + 1 ∧ (ms.Pairwise fun m n => m.1 < n.1) ∧
      CanonicalMembers inner ms
  | _ => True

def Value.CanonicalItems (room : Nat) : List Value → Prop
  | [] => True
  | v :: vs => v.Canonical room ∧ CanonicalItems room vs

def Value.CanonicalMembers (room : Nat) : List (String × Value) → Prop
  | [] => True
  | (_, v) :: ms => v.Canonical room ∧ CanonicalMembers room ms

end

namespace Value

theorem canonicalMembers_iff {room : Nat} {ms : List (String × Value)} :
    CanonicalMembers room ms ↔ ∀ m ∈ ms, m.2.Canonical room := by
  induction ms with
  | nil => simp [CanonicalMembers]
  | cons m ms ih => simp only [CanonicalMembers, ih, List.forall_mem_cons]

mutual

/-- A canonical value is read back from its draft. -/
theorem value_draft (surplus : Nat → Fault) (room : Nat) (v : Value) (h : v.Canonical room) :
    (v.draft surplus).value room = .ok v := by
  cases v with
  | null => rfl
  | boolean b => rfl
  | number n => rfl
  | text s => rfl
  | array vs =>
      obtain ⟨inner, rfl, items⟩ := h
      have read := values_draft surplus inner vs items
      simp only [draft, Draft.value, read]
      rfl
  | object ms =>
      obtain ⟨inner, rfl, ascending, members⟩ := h
      have read := memberValues_draft surplus inner [] ms members ascending
      simp only [draft, Draft.value, read]
      rfl

theorem values_draft (surplus : Nat → Fault) (room : Nat) (vs : List Value)
    (h : CanonicalItems room vs) : Draft.values room (draftItems surplus vs) = .ok vs := by
  cases vs with
  | nil => rfl
  | cons v vs =>
      simp only [draftItems, Draft.values, value_draft surplus room v h.1,
        values_draft surplus room vs h.2]
      rfl

theorem memberValues_draft (surplus : Nat → Fault) (room : Nat) (sofar ms : List (String × Value))
    (h : CanonicalMembers room ms) (ascending : (sofar ++ ms).Pairwise fun m n => m.1 < n.1) :
    Draft.memberValues room sofar (draftMembers surplus ms) = .ok (sofar ++ ms) := by
  cases ms with
  | nil => rw [draftMembers, Draft.memberValues, List.append_nil]
  | cons m ms =>
      obtain ⟨key, v⟩ := m
      have above : ∀ m ∈ sofar, m.1 < key := fun m hm =>
        (List.pairwise_append.mp ascending).2.2 m hm _ List.mem_cons_self
      rw [List.append_cons] at ascending ⊢
      rw [← memberValues_draft surplus room _ ms h.2 ascending, draftMembers, Draft.memberValues,
        ← setMember_append above]
      simp only [value_draft surplus room v h.1]
      rfl

end

mutual

/-- What a draft is read as is canonical. -/
theorem canonical_of_value (room : Nat) (d : Draft) (v : Value) (h : d.value room = .ok v) :
    v.Canonical room := by
  cases d with
  | null => cases h; trivial
  | boolean b => cases h; trivial
  | numeral n =>
      cases n <;> cases h
      trivial
  | text s =>
      obtain ⟨_, _, rfl⟩ := map_eq_ok.mp h
      trivial
  | array ds close surplus =>
      cases room with
      | zero => cases h
      | succ room =>
          obtain ⟨vs, items, h⟩ := bind_eq_ok.mp h
          obtain ⟨_, _, h⟩ := bind_eq_ok.mp h
          cases h
          exact ⟨room, rfl, canonical_of_values room ds vs items⟩
  | object ms close =>
      cases room with
      | zero => cases h
      | succ room =>
          obtain ⟨ns, members, h⟩ := bind_eq_ok.mp h
          obtain ⟨_, _, h⟩ := bind_eq_ok.mp h
          cases h
          have read := canonical_of_memberValues room [] ms ns members List.Pairwise.nil nofun
          exact ⟨room, rfl, read.1, canonicalMembers_iff.mpr read.2⟩
  | broken stop => cases h

theorem canonical_of_values (room : Nat) (ds : List Draft) (vs : List Value)
    (h : Draft.values room ds = .ok vs) : CanonicalItems room vs := by
  cases ds with
  | nil => cases h; trivial
  | cons d ds =>
      obtain ⟨v, item, h⟩ := bind_eq_ok.mp h
      obtain ⟨rest, items, h⟩ := bind_eq_ok.mp h
      cases h
      exact ⟨canonical_of_value room d v item, canonical_of_values room ds rest items⟩

theorem canonical_of_memberValues (room : Nat) (sofar : List (String × Value))
    (ms : List (Except Fault String × Draft)) (ns : List (String × Value))
    (h : Draft.memberValues room sofar ms = .ok ns)
    (ascending : sofar.Pairwise fun m n => m.1 < n.1)
    (members : ∀ m ∈ sofar, m.2.Canonical room) :
    (ns.Pairwise fun m n => m.1 < n.1) ∧ ∀ m ∈ ns, m.2.Canonical room := by
  cases ms with
  | nil =>
      cases h
      exact ⟨ascending, members⟩
  | cons m ms =>
      obtain ⟨key, d⟩ := m
      rw [Draft.memberValues] at h
      obtain ⟨key, rfl, read⟩ := bind_eq_ok.mp h
      obtain ⟨v, item, others⟩ := bind_eq_ok.mp read
      refine canonical_of_memberValues room _ ms ns others (setMember_ascending ascending) ?_
      intro m hm
      rcases mem_setMember hm with rfl | old
      · exact canonical_of_value room d v item
      · exact members m old

end

end Value
end AssessmentPlans.Json
