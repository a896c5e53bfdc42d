/-! Lists without repetition: of the items that share a key the first is kept. -/
namespace AssessmentPlans

/-- The items whose key no earlier item has, in their order. -/
def distinctBy {α β} [DecidableEq β] (key : α → β) : List α → List α
  | [] => []
  | a :: as => a :: (distinctBy key as).filter fun b => key b ≠ key a

def distinct {α} [DecidableEq α] (as : List α) : List α := distinctBy id as

/-- Adds an item at the end unless it is there. -/
def addNew {α} [DecidableEq α] (as : List α) (a : α) : List α :=
  if a ∈ as then as else as ++ [a]

theorem distinctBy_sublist {α β} [DecidableEq β] (key : α → β) (as : List α) :
    (distinctBy key as).Sublist as := by
  induction as with
  | nil => exact List.Sublist.refl _
  | cons a as ih => exact List.Sublist.cons_cons a (List.filter_sublist.trans ih)

theorem distinctBy_pairwise {α β} [DecidableEq β] (key : α → β) (as : List α) :
    (distinctBy key as).Pairwise fun a b => key a ≠ key b := by
  induction as with
  | nil => exact List.Pairwise.nil
  | cons a as ih =>
    refine List.Pairwise.cons ?_ (List.Pairwise.filter _ ih)
    intro b hb
    have := (List.mem_filter.mp hb).2
    exact fun h => (by simpa using this : key b ≠ key a) h.symm

end AssessmentPlans
