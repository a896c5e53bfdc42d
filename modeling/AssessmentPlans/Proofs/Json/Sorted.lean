import AssessmentPlans.Proofs.Json.Normal
import Mathlib.Data.List.Nodup

/-! Values up to the order of their members. Where no object repeats a key, a value is told
by what stands under each key; reading it as a value puts its members in ascending order and
changes nothing else. -/
namespace AssessmentPlans.Json

mutual

/-- No object in the value has two members with one key. -/
def Value.Single : Value → Prop
  | .array vs => SingleItems vs
  | .object ms => (ms.map (·.1)).Nodup ∧ SingleMembers ms
  | _ => True

def Value.SingleItems : List Value → Prop
  | [] => True
  | v :: vs => v.Single ∧ SingleItems vs

def Value.SingleMembers : List (String × Value) → Prop
  | [] => True
  | (_, v) :: ms => v.Single ∧ SingleMembers ms

end

mutual

/-- The value with the members of its objects in ascending order of their keys. -/
def Value.sorted : Value → Value
  | .array vs => .array (sortedItems vs)
  | .object ms => .object (sortedMembers [] ms)
  | v => v

def Value.sortedItems : List Value → List Value
  | [] => []
  | v :: vs => v.sorted :: sortedItems vs

/-- Puts the members in their places among those that are there. -/
def Value.sortedMembers (sofar : List (String × Value)) :
    List (String × Value) → List (String × Value)
  | [] => sofar
  | (key, v) :: ms => sortedMembers (setMember key v.sorted sofar) ms

end

section Lookup

variable {α : Type} {key name : String} {value : α} {ms : List (String × α)}

theorem lookup_cons_eq :
    ((key, value) :: ms).lookup name = if name = key then some value else ms.lookup name := by
  by_cases same : name = key
  · rw [same, List.lookup_cons_self, if_pos rfl]
  · rw [List.lookup_cons, beq_false_of_ne same, if_neg same]

theorem lookup_eq_none : ms.lookup name = none ↔ name ∉ ms.map (·.1) := by
  rw [List.lookup_eq_none_iff]
  constructor
  · intro other here
    obtain ⟨m, hm, rfl⟩ := List.mem_map.mp here
    exact bne_iff_ne.mp (other m hm) rfl
  · intro apart m hm
    refine bne_iff_ne.mpr ?_
    rintro rfl
    exact apart (List.mem_map.mpr ⟨m, hm, rfl⟩)

theorem lookup_setMember :
    (setMember key value ms).lookup name = if name = key then some value else ms.lookup name := by
  induction ms with
  | nil => exact lookup_cons_eq
  | cons m ms ih =>
      obtain ⟨k, v⟩ := m
      unfold setMember
      split
      · exact lookup_cons_eq
      · split
        · next same =>
          subst same
          simp only [lookup_cons_eq]
          split <;> rfl
        · next other =>
          rw [lookup_cons_eq, ih, lookup_cons_eq]
          by_cases here : name = k
          · rw [if_pos here, if_pos here, if_neg fun same => other (same.symm.trans here)]
          · rw [if_neg here, if_neg here]

theorem lookup_of_mem (once : (ms.map (·.1)).Nodup) {m : String × α} (h : m ∈ ms) :
    ms.lookup m.1 = some m.2 := by
  induction ms with
  | nil => cases h
  | cons n ms ih =>
      obtain ⟨unused, rest⟩ := List.nodup_cons.mp once
      rcases List.mem_cons.mp h with rfl | later
      · exact List.lookup_cons_self
      · have other : m.1 ≠ n.1 := fun same => unused (List.mem_map.mpr ⟨m, later, same⟩)
        rw [lookup_cons_eq, if_neg other]
        exact ih rest later

theorem ascending_nodup (ascending : ms.Pairwise fun m n => m.1 < n.1) :
    (ms.map (·.1)).Nodup := by
  refine List.pairwise_map.mpr (ascending.imp ?_)
  intro m n lt
  exact String.ne_of_lt lt

theorem lookup_map {β : Type} {f : α → β} :
    (ms.map fun m => (m.1, f m.2)).lookup name = (ms.lookup name).map f := by
  induction ms with
  | nil => rfl
  | cons m ms ih =>
      rw [List.map_cons, lookup_cons_eq, lookup_cons_eq, ih]
      split <;> rfl

theorem lookup_filter_apart {names : List String} :
    (ms.filter fun m => m.1 ∉ names).lookup name =
      if name ∈ names then none else ms.lookup name := by
  induction ms with
  | nil => simp
  | cons m ms ih =>
      rw [List.filter_cons, lookup_cons_eq]
      by_cases same : name = m.1
      · subst same
        rw [if_pos rfl]
        split
        · next unknown => rw [lookup_cons_eq, if_pos rfl, if_neg (of_decide_eq_true unknown)]
        · next known =>
          have member : m.1 ∈ names := by simpa using known
          rw [ih, if_pos member, if_pos member]
      · rw [if_neg same, ← ih]
        split
        · rw [lookup_cons_eq, if_neg same]
        · rfl

theorem filter_once {p : String × α → Bool} (once : (ms.map (·.1)).Nodup) :
    ((ms.filter p).map (·.1)).Nodup :=
  once.sublist (List.filter_sublist.map _)

/-- Members in ascending order are told by what stands under each key. -/
theorem ascending_ext {ns : List (String × α)} (hm : ms.Pairwise fun m n => m.1 < n.1)
    (hn : ns.Pairwise fun m n => m.1 < n.1) (same : ∀ key, ms.lookup key = ns.lookup key) :
    ms = ns := by
  have ordered : ∀ a b : String × α, a ∈ ms → b ∈ ns → a.1 < b.1 → b.1 < a.1 → a = b :=
    fun a b _ _ lt gt => absurd (String.lt_trans lt gt) (String.lt_irrefl _)
  have once := ascending_nodup hm
  have once' := ascending_nodup hn
  refine List.Perm.eq_of_pairwise ordered hm hn ?_
  refine (List.perm_ext_iff_of_nodup (List.Nodup.of_map _ once) (List.Nodup.of_map _ once')).mpr ?_
  intro m
  constructor
  · intro h
    exact mem_of_lookup_eq_some ((same m.1).symm.trans (lookup_of_mem once h))
  · intro h
    exact mem_of_lookup_eq_some ((same m.1).trans (lookup_of_mem once' h))

end Lookup

namespace Value

variable {v : Value} {vs : List Value} {ms sofar : List (String × Value)} {key : String}

theorem singleItems_iff : SingleItems vs ↔ ∀ v ∈ vs, v.Single := by
  induction vs with
  | nil => simp [SingleItems]
  | cons v vs ih => simp only [SingleItems, ih, List.forall_mem_cons]

theorem singleMembers_iff : SingleMembers ms ↔ ∀ m ∈ ms, m.2.Single := by
  induction ms with
  | nil => simp [SingleMembers]
  | cons m ms ih => simp only [SingleMembers, ih, List.forall_mem_cons]

theorem depthOfItems_le_iff {n : Nat} : depthOfItems vs ≤ n ↔ ∀ v ∈ vs, v.depth ≤ n := by
  induction vs with
  | nil => simp [depthOfItems]
  | cons v vs ih => simp only [depthOfItems, Nat.max_le, ih, List.forall_mem_cons]

theorem depthOfMembers_le_iff {n : Nat} : depthOfMembers ms ≤ n ↔ ∀ m ∈ ms, m.2.depth ≤ n := by
  induction ms with
  | nil => simp [depthOfMembers]
  | cons m ms ih => simp only [depthOfMembers, Nat.max_le, ih, List.forall_mem_cons]

theorem sortedItems_eq_map : sortedItems vs = vs.map sorted := by
  induction vs with
  | nil => rfl
  | cons v vs ih => rw [sortedItems, ih, List.map_cons]

theorem sortedMembers_ascending (h : sofar.Pairwise fun m n => m.1 < n.1) :
    (sortedMembers sofar ms).Pairwise fun m n => m.1 < n.1 := by
  induction ms generalizing sofar with
  | nil => exact h
  | cons m ms ih => exact ih (setMember_ascending h)

theorem lookup_sortedMembers (once : (ms.map (·.1)).Nodup) :
    (sortedMembers sofar ms).lookup key = ((ms.lookup key).map sorted).or (sofar.lookup key) := by
  induction ms generalizing sofar with
  | nil => rfl
  | cons m ms ih =>
      obtain ⟨unused, rest⟩ := List.nodup_cons.mp once
      rw [sortedMembers, ih rest, lookup_setMember, lookup_cons_eq]
      by_cases same : key = m.1
      · subst same
        rw [if_pos rfl, if_pos rfl, lookup_eq_none.mpr unused]
        rfl
      · rw [if_neg same, if_neg same]

theorem mem_sortedMembers {m : String × Value} (h : m ∈ sortedMembers sofar ms) :
    m ∈ sofar ∨ ∃ n ∈ ms, m = (n.1, n.2.sorted) := by
  induction ms generalizing sofar with
  | nil => exact .inl h
  | cons n ms ih =>
      rcases ih h with before | ⟨k, hk, rfl⟩
      · rcases mem_setMember before with rfl | before
        · exact .inr ⟨n, List.mem_cons_self, rfl⟩
        · exact .inl before
      · exact .inr ⟨k, List.mem_cons_of_mem n hk, rfl⟩

/-- Members that are in order already stay as they are. -/
theorem sortedMembers_eq_self (ascending : (sofar ++ ms).Pairwise fun m n => m.1 < n.1)
    (each : ∀ m ∈ ms, m.2.sorted = m.2) : sortedMembers sofar ms = sofar ++ ms := by
  induction ms generalizing sofar with
  | nil => rw [sortedMembers, List.append_nil]
  | cons m ms ih =>
      obtain ⟨first, later⟩ := List.forall_mem_cons.mp each
      have above : ∀ n ∈ sofar, n.1 < m.1 := fun n hn =>
        (List.pairwise_append.mp ascending).2.2 n hn _ List.mem_cons_self
      rw [List.append_cons] at ascending ⊢
      rw [sortedMembers, first, setMember_append above]
      exact ih ascending later

mutual

theorem sorted_sorted (v : Value) : v.sorted.sorted = v.sorted := by
  cases v with
  | array vs =>
      refine congrArg array ?_
      rw [sortedItems_eq_map, sortedItems_eq_map, List.map_map]
      exact List.map_congr_left fun v hv => sorted_sortedItems vs v hv
  | object ms =>
      refine congrArg object ?_
      have ascending : (sortedMembers [] ms).Pairwise fun m n => m.1 < n.1 :=
        sortedMembers_ascending List.Pairwise.nil
      rw [sortedMembers_eq_self (by rwa [List.nil_append])]
      · rw [List.nil_append]
      · intro m hm
        rcases mem_sortedMembers hm with old | ⟨n, hn, rfl⟩
        · cases old
        · exact sorted_sortedMembers ms n hn
  | null => rfl
  | boolean b => rfl
  | number n => rfl
  | text s => rfl

theorem sorted_sortedItems (vs : List Value) : ∀ v ∈ vs, v.sorted.sorted = v.sorted := by
  cases vs with
  | nil => exact List.forall_mem_nil _
  | cons v vs => exact List.forall_mem_cons.mpr ⟨sorted_sorted v, sorted_sortedItems vs⟩

theorem sorted_sortedMembers (ms : List (String × Value)) :
    ∀ m ∈ ms, m.2.sorted.sorted = m.2.sorted := by
  cases ms with
  | nil => exact List.forall_mem_nil _
  | cons m ms => exact List.forall_mem_cons.mpr ⟨sorted_sorted m.2, sorted_sortedMembers ms⟩

end

/-! What a value's draft is read as. -/

mutual

/-- A value is read as itself, with its members in order. -/
theorem value_draft_sorted (surplus : Nat → Fault) (room : Nat) (v : Value)
    (shallow : v.depth ≤ room) : (v.draft surplus).value room = .ok v.sorted := by
  cases v with
  | null => rfl
  | boolean b => rfl
  | number n => rfl
  | text s => rfl
  | array vs =>
      cases room with
      | zero => exact absurd shallow (Nat.not_succ_le_zero _)
      | succ room =>
          have items := values_draft_sorted surplus room vs (Nat.le_of_succ_le_succ shallow)
          simp only [draft, Draft.value, items]
          rfl
  | object ms =>
      cases room with
      | zero => exact absurd shallow (Nat.not_succ_le_zero _)
      | succ room =>
          have members :=
            memberValues_draft_sorted surplus room [] ms (Nat.le_of_succ_le_succ shallow)
          simp only [draft, Draft.value, members]
          rfl

theorem values_draft_sorted (surplus : Nat → Fault) (room : Nat) (vs : List Value)
    (shallow : depthOfItems vs ≤ room) :
    Draft.values room (draftItems surplus vs) = .ok (sortedItems vs) := by
  cases vs with
  | nil => rfl
  | cons v vs =>
      obtain ⟨first, later⟩ := Nat.max_le.mp shallow
      simp only [draftItems, Draft.values, value_draft_sorted surplus room v first,
        values_draft_sorted surplus room vs later]
      rfl

theorem memberValues_draft_sorted (surplus : Nat → Fault) (room : Nat)
    (sofar ms : List (String × Value)) (shallow : depthOfMembers ms ≤ room) :
    Draft.memberValues room sofar (draftMembers surplus ms) = .ok (sortedMembers sofar ms) := by
  cases ms with
  | nil => rfl
  | cons m ms =>
      obtain ⟨first, later⟩ := Nat.max_le.mp shallow
      rw [draftMembers, Draft.memberValues]
      simp only [value_draft_sorted surplus room m.2 first]
      exact memberValues_draft_sorted surplus room _ ms later

end

mutual

/-- A value can be passed over. -/
theorem skip_draft (surplus : Nat → Fault) (v : Value) : (v.draft surplus).skip = .ok () := by
  cases v with
  | null => rfl
  | boolean b => rfl
  | number n => rfl
  | text s => rfl
  | array vs =>
      simp only [draft, Draft.skip, skipAll_draft surplus vs]
      rfl
  | object ms =>
      simp only [draft, Draft.skip, skipMembers_draft surplus ms]
      rfl

theorem skipAll_draft (surplus : Nat → Fault) (vs : List Value) :
    Draft.skipAll (draftItems surplus vs) = .ok () := by
  cases vs with
  | nil => rfl
  | cons v vs =>
      simp only [draftItems, Draft.skipAll, skip_draft surplus v]
      exact skipAll_draft surplus vs

theorem skipMembers_draft (surplus : Nat → Fault) (ms : List (String × Value)) :
    Draft.skipMembers (draftMembers surplus ms) = .ok () := by
  cases ms with
  | nil => rfl
  | cons m ms =>
      simp only [draftMembers, Draft.skipMembers, skip_draft surplus m.2]
      exact skipMembers_draft surplus ms

end

end Value
end AssessmentPlans.Json
