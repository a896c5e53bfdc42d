import AssessmentPlans.Config.Basic
import Mathlib.Data.List.Basic

/-! What is wrong with a configuration, defect by defect, and which configurations are accepted. -/
namespace AssessmentPlans.ScopeConfig

variable {c : ScopeConfig} {d : ConfigDefect}

/-- A defect with what it stands for in the configuration. -/
inductive Defective (c : ScopeConfig) : ConfigDefect → Prop where
  | framework (blank : Text.Blank c.framework) : Defective c .blankFramework
  | blank {index : Nat} {id : String} (listed : c.controls[index]? = some id)
      (blank : Text.Blank id) : Defective c (.blankControl index)
  | untrimmed {index : Nat} {id : String} (listed : c.controls[index]? = some id)
      (filled : ¬Text.Blank id) (edges : Text.trim id ≠ id) : Defective c (.untrimmedControl index id)

theorem controlDefect?_eq_some {index : Nat} {id : String}
    (listed : c.controls[index]? = some id) (h : controlDefect? index id = some d) :
    Defective c d := by
  rw [controlDefect?] at h
  split at h
  · next blank =>
    cases h
    exact .blank listed blank
  · next filled =>
    split at h
    · next edges =>
      cases h
      exact .untrimmed listed filled edges
    · cases h

theorem mem_defects : d ∈ c.defects ↔ Defective c d := by
  rw [defects, List.mem_append, List.mem_filterMap]
  constructor
  · rintro (whole | ⟨_, found, rfl⟩)
    · split at whole
      · next blank =>
        cases List.mem_singleton.mp whole
        exact .framework blank
      · cases whole
    · obtain ⟨index, bound, found⟩ := List.mem_mapIdx.mp found
      exact controlDefect?_eq_some (List.getElem?_eq_getElem bound) found
  · -- Each control is looked at with its own index.
    have place : ∀ {index : Nat} {id : String}, c.controls[index]? = some id →
        controlDefect? index id ∈ c.controls.mapIdx controlDefect? := by
      intro index id listed
      obtain ⟨bound, rfl⟩ := List.getElem?_eq_some_iff.mp listed
      exact List.mem_mapIdx.mpr ⟨index, bound, rfl⟩
    intro wrong
    cases wrong with
    | framework blank =>
        rw [if_pos blank]
        exact .inl List.mem_cons_self
    | blank listed blank =>
        refine .inr ⟨_, place listed, ?_⟩
        rw [controlDefect?, if_pos blank]
        rfl
    | untrimmed listed filled edges =>
        refine .inr ⟨_, place listed, ?_⟩
        rw [controlDefect?, if_neg filled, if_pos edges]
        rfl

theorem defects_eq_nil : c.defects = [] ↔
    ¬Text.Blank c.framework ∧ ∀ id ∈ c.controls, ¬Text.Blank id ∧ Text.trim id = id := by
  rw [List.eq_nil_iff_forall_not_mem]
  simp only [mem_defects]
  constructor
  · intro sound
    refine ⟨fun blank => sound _ (.framework blank), fun id member => ?_⟩
    obtain ⟨index, listed⟩ := List.mem_iff_getElem?.mp member
    have filled : ¬Text.Blank id := fun blank => sound _ (.blank listed blank)
    exact ⟨filled, by_contra fun edges => sound _ (.untrimmed listed filled edges)⟩
  · rintro ⟨named, clean⟩ d wrong
    cases wrong with
    | framework blank => exact named blank
    | blank listed blank => exact (clean _ (List.mem_of_getElem? listed)).1 blank
    | untrimmed listed _ edges => exact edges (clean _ (List.mem_of_getElem? listed)).2

theorem validate_eq_ok {expected : Option String} {warnings : List String} :
    c.validate expected = .ok warnings ↔ c.defects = [] ∧ c.warnings expected = warnings := by
  rw [validate]
  split
  · next none => exact ⟨fun h => ⟨none, Except.ok.inj h⟩, fun h => congrArg Except.ok h.2⟩
  · next first rest some =>
    refine iff_of_false (fun h => nomatch h) fun h => ?_
    rw [some] at h
    exact List.cons_ne_nil _ _ h.1

theorem validate_of_trimmed (named : ¬Text.Blank c.framework) (listed : c.controls ≠ [])
    (trimmed : ∀ id ∈ c.controls, ¬Text.Blank id ∧ Text.trim id = id) :
    c.validate (some c.framework) = .ok [] := by
  have quiet : c.warnings (some c.framework) = [] := by
    simp only [warnings, if_true, List.isEmpty_eq_false_iff.mpr listed, Bool.false_eq_true,
      if_false, List.append_nil]
  exact validate_eq_ok.mpr ⟨defects_eq_nil.mpr ⟨named, trimmed⟩, quiet⟩

end AssessmentPlans.ScopeConfig
