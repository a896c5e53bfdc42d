/-! Finite sets of identifiers, as strictly ascending lists: two sets with the
same members are the same set. -/
namespace AssessmentPlans

structure IdSet where
  ids : List String
  ascending : ids.Pairwise (· < ·)
  deriving DecidableEq

namespace IdSet

def insertId (id : String) : List String → List String
  | [] => [id]
  | x :: xs =>
    if id < x then id :: x :: xs
    else if id = x then x :: xs
    else x :: insertId id xs

theorem mem_insertId {id x : String} {xs : List String} :
    x ∈ insertId id xs ↔ x = id ∨ x ∈ xs := by
  induction xs with
  | nil => simp [insertId]
  | cons y ys ih =>
    unfold insertId
    split
    · simp
    · split
      · next h => subst h; simp
      · simp only [List.mem_cons, ih]; exact or_left_comm

theorem insertId_ascending {id : String} {xs : List String} (h : xs.Pairwise (· < ·)) :
    (insertId id xs).Pairwise (· < ·) := by
  induction xs with
  | nil => simp [insertId]
  | cons y ys ih =>
    have ⟨hy, hys⟩ := List.pairwise_cons.mp h
    unfold insertId
    split
    · next lt =>
      refine List.pairwise_cons.mpr ⟨?_, h⟩
      intro z hz
      rcases List.mem_cons.mp hz with rfl | hz
      · exact lt
      · exact String.lt_trans lt (hy z hz)
    · split
      · exact h
      · next notLt ne =>
        refine List.pairwise_cons.mpr ⟨?_, ih hys⟩
        intro z hz
        rcases mem_insertId.mp hz with rfl | hz
        · refine Decidable.byContradiction fun notGt => ne ?_
          exact String.le_antisymm (String.not_lt.mp notGt) (String.not_lt.mp notLt)
        · exact hy z hz

def empty : IdSet := ⟨[], List.Pairwise.nil⟩

def insert (id : String) (s : IdSet) : IdSet :=
  ⟨insertId id s.ids, insertId_ascending s.ascending⟩

/-- The set of the given identifiers; their order and repetition do not matter. -/
def ofList (ids : List String) : IdSet := ids.foldr insert empty

instance : Membership String IdSet := ⟨fun s id => id ∈ s.ids⟩

instance (id : String) (s : IdSet) : Decidable (id ∈ s) :=
  inferInstanceAs (Decidable (id ∈ s.ids))

def size (s : IdSet) : Nat := s.ids.length

def isEmpty (s : IdSet) : Bool := s.ids.isEmpty

theorem mem_ofList {id : String} {ids : List String} : id ∈ ofList ids ↔ id ∈ ids := by
  induction ids with
  | nil => simp [ofList, empty, Membership.mem]
  | cons x xs ih =>
    show id ∈ insertId x (ofList xs).ids ↔ _
    rw [mem_insertId, List.mem_cons]
    exact or_congr Iff.rfl ih

end IdSet
end AssessmentPlans
