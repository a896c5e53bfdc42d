import AssessmentPlans.Proofs.Distinct
import AssessmentPlans.Proofs.Scope.Frame

/-! What narrowing does to one selection: which controls it selects in effect afterwards,
which entries it lists, and what the outcome tells of it. -/
namespace AssessmentPlans

/-- Whether a control is selected in effect: it is included, by name or with all others, and
it is not excepted. -/
def Selection.Selects (s : Selection) (id : String) : Prop :=
  (s.includeAll = true ∨ ∃ c ∈ s.includedRefs, c.id = id) ∧ ∀ c ∈ s.excludedRefs, c.id ≠ id

/-- The entries of a list that are in scope and whose control no entry before them names. -/
def firstEntries (scope : IdSet) (cs : List ControlRef) : List ControlRef :=
  (cs.zipIdx.filter fun x : ControlRef × Nat =>
    x.1.id ∈ scope ∧ ∀ b ∈ cs.take x.2, b.id ≠ x.1.id).map (·.1)

/-- What becomes of a selection under a scope, and what the outcome says of it. -/
structure Selection.Narrowed (scope : IdSet) (s t : Selection) (o : Outcome) : Prop where
  effect : ∀ id, t.Selects id ↔ s.Selects id ∧ id ∈ scope
  listed : s.includeAll = false → t.includedRefs = firstEntries scope s.includedRefs
  /-- All controls become those in scope, whatever was listed beside. -/
  all : s.includeAll = true → (t.includedRefs.map (·.id)).Pairwise (· < ·) ∧
    (∀ id, (∃ c ∈ t.includedRefs, c.id = id) ↔ id ∈ scope) ∧
    ∀ c ∈ t.includedRefs, c.statements = none
  explicit : t.includeAll = false
  rest : s.Framed t
  included : o.included = t.includedRefs.map (·.id)
  emptied : o.becameEmpty = true ↔ t.includes = none ∧ t.selectsAny = false
  /-- No list is left empty: it is absent if nothing is selected. -/
  absent : t.includes = none ↔ t.selectsAny = false

section Entries

variable {scope : IdSet}

theorem firstEntries_concat (cs : List ControlRef) (c : ControlRef) :
    firstEntries scope (cs ++ [c]) = firstEntries scope cs ++
      if c.id ∈ scope ∧ ∀ b ∈ cs, b.id ≠ c.id then [c] else [] := by
  unfold firstEntries
  rw [List.zipIdx_append, List.filter_append, List.map_append]
  congr 1
  · congr 1
    apply List.filter_congr
    intro x member
    have place := (List.mem_zipIdx' member).1
    rw [List.take_append_of_le_length place.le]
  · rw [List.zipIdx_singleton, List.filter_singleton, Nat.zero_add, List.take_left]
    by_cases first : c.id ∈ scope ∧ ∀ b ∈ cs, b.id ≠ c.id
    · rw [if_pos first, decide_eq_true first]
      rfl
    · rw [if_neg first, decide_eq_false first]
      rfl

/-- Dropping the entries out of scope and then the repetitions leaves the first entries. -/
theorem distinctBy_filter_eq_firstEntries (cs : List ControlRef) :
    distinctBy (·.id) (cs.filter fun c => c.id ∈ scope) = firstEntries scope cs := by
  induction cs using List.reverseRecOn with
  | nil => rfl
  | append_singleton cs c ih =>
      rw [List.filter_append, firstEntries_concat, ← ih]
      by_cases inside : c.id ∈ scope
      · -- an entry for the same control is in scope too, so the filter hides no earlier one
        have fresh : (∀ b ∈ cs.filter (fun c => c.id ∈ scope), b.id ≠ c.id) ↔
            c.id ∈ scope ∧ ∀ b ∈ cs, b.id ≠ c.id := by
          simp only [List.mem_filter, decide_eq_true_iff, and_imp]
          constructor
          · intro apart
            exact ⟨inside, fun b member same => apart b member (same ▸ inside) same⟩
          · intro apart b member _
            exact apart.2 b member
        rw [List.filter_singleton, decide_eq_true inside, cond_true, distinctBy_concat]
        simp only [fresh]
      · rw [List.filter_singleton, decide_eq_false inside, cond_false, List.append_nil,
          if_neg (fun first => inside first.1), List.append_nil]

end Entries

namespace Selection

variable {scope : IdSet}

theorem keptRefs_listed {s : Selection} (listed : s.includeAll = false) :
    s.keptRefs scope = firstEntries scope s.includedRefs := by
  rw [keptRefs, listed, if_neg Bool.false_ne_true, distinctBy_filter_eq_firstEntries]

theorem keptRefs_all {s : Selection} (all : s.includeAll = true) :
    s.keptRefs scope = scope.ids.map ControlRef.whole := by
  rw [keptRefs, all, if_pos rfl]

/-- A control is kept exactly if it was included and is in scope. -/
theorem exists_keptRefs {s : Selection} {id : String} : (∃ c ∈ s.keptRefs scope, c.id = id) ↔
    (s.includeAll = true ∨ ∃ c ∈ s.includedRefs, c.id = id) ∧ id ∈ scope := by
  cases all : s.includeAll with
  | true =>
      rw [keptRefs_all all]
      simp only [List.mem_map, exists_exists_and_eq_and, ControlRef.whole, exists_eq_right, true_or,
        true_and]
      rfl
  | false =>
      have listed : (∃ c ∈ s.keptRefs scope, c.id = id) ↔
          ∃ c ∈ s.includedRefs.filter (fun c => c.id ∈ scope), c.id = id := by
        rw [keptRefs, all, if_neg Bool.false_ne_true, ← List.mem_map, map_distinctBy, mem_distinct,
          List.mem_map]
      rw [listed]
      simp only [Bool.false_eq_true, false_or, List.mem_filter, decide_eq_true_iff]
      constructor
      · rintro ⟨c, ⟨member, inside⟩, rfl⟩
        exact ⟨⟨c, member, rfl⟩, inside⟩
      · rintro ⟨⟨c, member, rfl⟩, inside⟩
        exact ⟨c, ⟨member, inside⟩, rfl⟩

theorem narrow_includes_eq_none (s : Selection) :
    (s.narrow scope).includes = none ↔ s.keptRefs scope = [] := by
  show (if (s.keptRefs scope).isEmpty then none else some (s.keptRefs scope)) = none ↔ _
  rw [ite_eq_left_iff, ← List.isEmpty_iff]
  simp

theorem narrow_selectsAny_eq_false (s : Selection) :
    (s.narrow scope).selectsAny = false ↔ s.keptRefs scope = [] := by
  rw [narrow_selectsAny, Bool.not_eq_false', List.isEmpty_iff]

theorem narrow_selects (s : Selection) (id : String) :
    (s.narrow scope).Selects id ↔ s.Selects id ∧ id ∈ scope := by
  have explicit : (s.narrow scope).includeAll = false := rfl
  rw [Selects, Selects, explicit, narrow_includedRefs, narrow_excludedRefs, exists_keptRefs]
  simp only [Bool.false_eq_true, false_or]
  exact and_right_comm

/-- Narrowing does to a selection just what the scope asks for, and the outcome tells it. -/
theorem narrow_exact (scope : IdSet) (s : Selection) :
    s.Narrowed scope (s.narrow scope) (s.outcome scope) where
  effect := s.narrow_selects
  listed := by
    intro listed
    rw [narrow_includedRefs, keptRefs_listed listed]
  all := by
    intro all
    rw [narrow_includedRefs, keptRefs_all all]
    have ids : (scope.ids.map ControlRef.whole).map (·.id) = scope.ids := by
      rw [List.map_map]
      exact List.map_id _
    refine ⟨ids.symm ▸ scope.ascending, ?_, ?_⟩
    · intro id
      rw [← List.mem_map, ids]
      rfl
    · rw [List.forall_mem_map]
      intro id _
      rfl
  explicit := rfl
  rest := s.narrow_framed
  included := by
    rw [narrow_includedRefs]
    rfl
  emptied := by
    rw [narrow_includes_eq_none, narrow_selectsAny_eq_false, and_self, Outcome.becameEmpty, outcome,
      List.isEmpty_map, List.isEmpty_iff]
  absent := by
    rw [narrow_includes_eq_none, narrow_selectsAny_eq_false]

end Selection
end AssessmentPlans
