import AssessmentPlans.Text.Pieces
import Mathlib.Data.String.Defs

/-! Cutting a text at a separator and joining the pieces again. -/
namespace AssessmentPlans.Text

variable {separator : Char}

theorem splitOn_single {cs : List Char} (single : separator ∉ cs) :
    splitOn separator cs = [cs] := by
  induction cs with
  | nil => rfl
  | cons c cs ih =>
      have ne : c ≠ separator := fun same => single (same ▸ List.mem_cons_self)
      have rest := ih fun later => single (List.mem_cons_of_mem c later)
      simp only [splitOn, if_neg ne, rest]

theorem splitOn_append (cs ds : List Char) :
    splitOn separator (cs ++ separator :: ds) = splitOn separator cs ++ splitOn separator ds := by
  induction cs with
  | nil => simp only [List.nil_append, splitOn, if_true, List.singleton_append]
  | cons c cs ih =>
      rw [List.cons_append, splitOn, splitOn, ih]
      split
      · rfl
      · cases pieces : splitOn separator cs with
        | nil => exact absurd pieces (splitOn_ne_nil separator cs)
        | cons piece pieces => rfl

/-- The pieces are parts of the text without separators. -/
theorem splitOn_pieces {cs : List Char} :
    ∀ piece ∈ splitOn separator cs, separator ∉ piece ∧ piece ⊆ cs := by
  induction cs with
  | nil => exact List.forall_mem_singleton.mpr ⟨List.not_mem_nil, List.nil_subset []⟩
  | cons c cs ih =>
      have longer : ∀ piece, separator ∉ piece ∧ piece ⊆ cs → separator ∉ piece ∧ piece ⊆ c :: cs :=
        fun piece h => ⟨h.1, List.subset_cons_of_subset c h.2⟩
      rw [splitOn]
      split
      · exact List.forall_mem_cons.mpr ⟨⟨List.not_mem_nil, List.nil_subset _⟩,
          fun piece member => longer piece (ih piece member)⟩
      · next other =>
        cases rest : splitOn separator cs with
        | nil => exact absurd rest (splitOn_ne_nil separator cs)
        | cons first others =>
            rw [rest] at ih
            obtain ⟨⟨own, inside⟩, later⟩ := List.forall_mem_cons.mp ih
            refine List.forall_mem_cons.mpr ⟨⟨fun member => ?_, List.cons_subset_cons c inside⟩,
              fun piece member => longer piece (later piece member)⟩
            rcases List.mem_cons.mp member with same | inside
            · exact other same.symm
            · exact own inside

theorem intercalate_splitOn (cs : List Char) :
    [separator].intercalate (splitOn separator cs) = cs := by
  induction cs with
  | nil => rfl
  | cons c cs ih =>
      rw [splitOn]
      cases rest : splitOn separator cs with
      | nil => exact absurd rest (splitOn_ne_nil separator cs)
      | cons piece pieces =>
          rw [rest] at ih
          split
          · next same =>
            rw [List.intercalate_cons_cons, ih, same]
            rfl
          · cases pieces with
            | nil =>
                rw [List.intercalate_singleton] at ih ⊢
                rw [ih]
            | cons next pieces =>
                rw [List.intercalate_cons_cons] at ih ⊢
                rw [← ih]
                rfl

theorem splitOn_intercalate {pieces : List (List Char)} (some : pieces ≠ [])
    (single : ∀ piece ∈ pieces, separator ∉ piece) :
    splitOn separator ([separator].intercalate pieces) = pieces := by
  induction pieces with
  | nil => exact absurd rfl some
  | cons piece pieces ih =>
      obtain ⟨own, later⟩ := List.forall_mem_cons.mp single
      cases pieces with
      | nil => rw [List.intercalate_singleton, splitOn_single own]
      | cons next pieces =>
          rw [List.intercalate_cons_cons, List.append_assoc, List.singleton_append, splitOn_append,
            splitOn_single own, ih (List.cons_ne_nil next pieces) later, List.singleton_append]

theorem split_single {s : String} (single : separator ∉ s.toList) : split separator s = [s] := by
  rw [split, splitOn_single single, List.map_singleton, String.ofList_toList]

theorem split_append (s t : String) : split separator (s ++ String.singleton separator ++ t) =
    split separator s ++ split separator t := by
  rw [split, String.toList_append, String.toList_append, String.toList_singleton, List.append_assoc,
    List.singleton_append, splitOn_append, List.map_append]
  rfl

/-- These are what stands between the separators of the text. -/
structure Divides (separator : Char) (pieces : List String) (text : String) : Prop where
  some : pieces ≠ []
  single : ∀ piece ∈ pieces, separator ∉ piece.toList
  joined : (String.singleton separator).intercalate pieces = text

theorem split_divides (separator : Char) (text : String) :
    Divides separator (split separator text) text := by
  constructor
  · exact mt List.map_eq_nil_iff.mp (splitOn_ne_nil separator text.toList)
  · intro piece member
    obtain ⟨cs, part, rfl⟩ := List.mem_map.mp member
    rw [String.toList_ofList]
    exact (splitOn_pieces cs part).1
  · have pieces : (split separator text).map String.toList = splitOn separator text.toList := by
      rw [split, List.map_map]
      exact (List.map_congr_left fun cs _ => String.toList_ofList).trans (List.map_id _)
    rw [← String.toList_inj, String.toList_intercalate, pieces, String.toList_singleton,
      intercalate_splitOn]

/-- A text has no other pieces than those that it is cut into. -/
theorem Divides.split_eq {pieces : List String} {text : String}
    (divides : Divides separator pieces text) : split separator text = pieces := by
  have single : ∀ piece ∈ pieces.map String.toList, separator ∉ piece := by
    intro cs member
    obtain ⟨piece, part, rfl⟩ := List.mem_map.mp member
    exact divides.single piece part
  have some : pieces.map String.toList ≠ [] := mt List.map_eq_nil_iff.mp divides.some
  rw [split, ← divides.joined, String.toList_intercalate, String.toList_singleton,
    splitOn_intercalate some single, List.map_map]
  exact (List.map_congr_left fun piece _ => String.ofList_toList).trans (List.map_id _)

end AssessmentPlans.Text
