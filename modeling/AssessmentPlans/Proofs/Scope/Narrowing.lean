import AssessmentPlans.Scope.Selection
import Mathlib.Data.List.Sort

/-! What narrowing leaves of a selection. A set is determined by its members, and
keeping the first entry of each key commutes with choosing by key, so narrowing
twice keeps what both scopes have in common. -/
namespace AssessmentPlans

namespace IdSet

/-- Sets with the same members are the same set. -/
@[ext]
theorem ext_mem {a b : IdSet} (h : ∀ id, id ∈ a ↔ id ∈ b) : a = b := by
  have same : a.ids = b.ids := a.ascending.eq_of_mem_iff b.ascending h
  cases a
  cases b
  cases same
  rfl

/-- A set with the members of a list without repetition has as many. -/
theorem size_eq_length {s : IdSet} {ids : List String} (once : ids.Nodup)
    (same : ∀ id, id ∈ s ↔ id ∈ ids) : s.size = ids.length :=
  ((List.perm_ext_iff_of_nodup (s.ascending.imp String.ne_of_lt) once).mpr same).length_eq

theorem filter_ids {a b c : IdSet} (h : ∀ id, id ∈ c ↔ id ∈ a ∧ id ∈ b) :
    a.ids.filter (· ∈ b) = c.ids := by
  refine (a.ascending.filter _).eq_of_mem_iff c.ascending fun id => ?_
  rw [List.mem_filter, decide_eq_true_eq]
  exact (h id).symm

end IdSet

section Distinct

variable {α β : Type} [DecidableEq β] {key : α → β}

theorem distinctBy_eq_self {as : List α} (h : as.Pairwise fun a b => key a ≠ key b) :
    distinctBy key as = as := by
  induction as with
  | nil => rfl
  | cons a as ih =>
      obtain ⟨apart, rest⟩ := List.pairwise_cons.mp h
      rw [distinctBy, ih rest, List.filter_eq_self.mpr]
      intro b hb
      simpa using (apart b hb).symm

theorem distinctBy_filter (p : β → Bool) (as : List α) :
    (distinctBy key as).filter (fun a => p (key a)) =
      distinctBy key (as.filter fun a => p (key a)) := by
  induction as with
  | nil => rfl
  | cons a as ih =>
      have swap : ((distinctBy key as).filter fun b => key b ≠ key a).filter (fun b => p (key b)) =
          (distinctBy key (as.filter fun b => p (key b))).filter fun b => key b ≠ key a := by
        rw [← ih, List.filter_filter, List.filter_filter]
        exact List.filter_congr fun b _ => Bool.and_comm _ _
      by_cases ha : p (key a) = true
      · simp only [distinctBy, List.filter_cons, ha, if_true, swap]
      · simp only [distinctBy, List.filter_cons, ha, swap]
        refine List.filter_eq_self.mpr ?_
        -- an entry that `p` keeps cannot share its key with one that `p` drops
        intro b hb
        have kept := (List.mem_filter.mp ((distinctBy_sublist key _).subset hb)).2
        refine decide_eq_true fun same => ha ?_
        rw [← same]
        exact kept

theorem distinctBy_concat (as : List α) (a : α) :
    distinctBy key (as ++ [a]) =
      distinctBy key as ++ if ∀ b ∈ as, key b ≠ key a then [a] else [] := by
  induction as with
  | nil => rfl
  | cons b as ih =>
      rw [List.cons_append, distinctBy, distinctBy, ih, List.filter_append, List.cons_append]
      congr 2
      by_cases same : key b = key a
      · simp [same]
      · simp [same, Ne.symm same]

end Distinct

namespace Selection

theorem keptRefs_pairwise (scope : IdSet) (s : Selection) :
    (s.keptRefs scope).Pairwise fun c d => c.id ≠ d.id := by
  unfold keptRefs
  split
  · rw [List.pairwise_map]
    exact scope.ascending.imp fun lt => String.ne_of_lt lt
  · exact distinctBy_pairwise _ _

/-- Only controls in scope are kept. -/
theorem mem_of_mem_keptRefs {scope : IdSet} {s : Selection} {c : ControlRef}
    (h : c ∈ s.keptRefs scope) : c.id ∈ scope := by
  unfold keptRefs at h
  split at h
  · obtain ⟨id, member, rfl⟩ := List.mem_map.mp h
    exact member
  · have chosen := (distinctBy_sublist _ _).subset h
    exact of_decide_eq_true (List.mem_filter.mp chosen).2

theorem narrow_includedRefs (scope : IdSet) (s : Selection) :
    (s.narrow scope).includedRefs = s.keptRefs scope := by
  unfold narrow includedRefs
  cases s.keptRefs scope <;> rfl

theorem narrow_excludedRefs (scope : IdSet) (s : Selection) :
    (s.narrow scope).excludedRefs = s.excludedRefs := rfl

theorem narrow_selectsAny (scope : IdSet) (s : Selection) :
    (s.narrow scope).selectsAny = !(s.keptRefs scope).isEmpty := by
  rw [selectsAny, narrow_includedRefs]
  rfl

/-- What a narrowed selection keeps is what it kept before, as far as it is in the
second scope. -/
theorem keptRefs_narrow (a b : IdSet) (s : Selection) :
    (s.narrow a).keptRefs b = (s.keptRefs a).filter fun c => c.id ∈ b := by
  have listed : (s.narrow a).includeAll = false := rfl
  rw [keptRefs, listed, narrow_includedRefs, if_neg Bool.false_ne_true, distinctBy_eq_self]
  exact (s.keptRefs_pairwise a).filter _

theorem keptRefs_filter {a b c : IdSet} (h : ∀ id, id ∈ c ↔ id ∈ a ∧ id ∈ b) (s : Selection) :
    (s.keptRefs a).filter (fun r => r.id ∈ b) = s.keptRefs c := by
  unfold keptRefs
  split
  · rw [List.filter_map, ← IdSet.filter_ids h]
    rfl
  · rw [distinctBy_filter (fun id => decide (id ∈ b)), List.filter_filter]
    congr 1
    refine List.filter_congr fun r _ => ?_
    simp only [h, Bool.decide_and, Bool.and_comm]

/-- Narrowing to two scopes in turn is narrowing to what they have in common. -/
theorem narrow_narrow {a b c : IdSet} (h : ∀ id, id ∈ c ↔ id ∈ a ∧ id ∈ b) (s : Selection) :
    (s.narrow a).narrow b = s.narrow c := by
  have kept : (s.narrow a).keptRefs b = s.keptRefs c := by
    rw [keptRefs_narrow, keptRefs_filter h]
  unfold narrow at kept ⊢
  simp only [kept]

end Selection
end AssessmentPlans
