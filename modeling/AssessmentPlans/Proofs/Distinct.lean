import AssessmentPlans.Proofs.Scope.Narrowing
import Mathlib.Data.List.Basic
import Mathlib.Data.List.Induction

/-! What lists without repetition consist of, and in which order. -/
namespace AssessmentPlans

variable {α : Type} [DecidableEq α] {a b : α} {as : List α}

theorem mem_distinct : a ∈ distinct as ↔ a ∈ as := by
  unfold distinct
  induction as with
  | nil => exact Iff.rfl
  | cons b as ih =>
      rw [distinctBy, List.mem_cons, List.mem_cons, List.mem_filter, ih, decide_eq_true_iff]
      by_cases same : a = b
      · exact iff_of_true (.inl same) (.inl same)
      · exact or_congr Iff.rfl (and_iff_left same)

theorem distinct_nodup (as : List α) : (distinct as).Nodup := distinctBy_pairwise id as

theorem distinct_filter (p : α → Bool) (as : List α) :
    (distinct as).filter p = distinct (as.filter p) :=
  distinctBy_filter p as

theorem distinct_append (as bs : List α) :
    distinct (as ++ bs) = distinct as ++ (distinct bs).filter (· ∉ as) := by
  unfold distinct
  induction as with
  | nil => exact (List.filter_eq_self.mpr fun b _ => decide_eq_true List.not_mem_nil).symm
  | cons a as ih =>
      rw [List.cons_append, distinctBy, ih, List.filter_append, List.filter_filter, distinctBy,
        List.cons_append]
      congr 2
      refine List.filter_congr fun b _ => ?_
      simp only [id, ne_eq, List.mem_cons, not_or, Bool.decide_and]

/-- Items whose keys are all there already add nothing. -/
theorem distinctBy_append_of_known {γ : Type} {key : γ → α} {cs ds : List γ}
    (known : ∀ d ∈ ds, ∃ c ∈ cs, key c = key d) : distinctBy key (cs ++ ds) = distinctBy key cs := by
  induction ds using List.reverseRecOn with
  | nil => rw [List.append_nil]
  | append_singleton ds d ih =>
      obtain ⟨c, member, same⟩ := known d List.mem_concat_self
      have met : ¬∀ b ∈ cs ++ ds, key b ≠ key d :=
        fun apart => apart c (List.mem_append_left ds member) same
      rw [← List.append_assoc, distinctBy_concat, if_neg met, List.append_nil]
      exact ih fun b earlier => known b (List.mem_append_left [d] earlier)

theorem distinct_append_of_subset {as bs : List α} (known : bs ⊆ as) :
    distinct (as ++ bs) = distinct as :=
  distinctBy_append_of_known fun b member => ⟨b, known member, rfl⟩

theorem distinct_append_congr {as as' bs bs' : List α}
    (left : distinct as = distinct as') (right : distinct bs = distinct bs') :
    distinct (as ++ bs) = distinct (as' ++ bs') := by
  have same : ∀ a, a ∈ as ↔ a ∈ as' := fun a => by rw [← mem_distinct, left, mem_distinct]
  rw [distinct_append, distinct_append, left, right]
  simp only [same]

theorem distinct_replicate (a : α) (n : Nat) :
    distinct (List.replicate (n + 1) a) = [a] := by
  induction n with
  | zero => rfl
  | succ n ih =>
      rw [List.replicate_succ, distinct, distinctBy, ← distinct, ih]
      simp

theorem map_distinctBy {γ : Type} (key : γ → α) (cs : List γ) :
    (distinctBy key cs).map key = distinct (cs.map key) := by
  unfold distinct
  induction cs with
  | nil => rfl
  | cons c cs ih =>
      rw [distinctBy, List.map_cons, List.map_cons, distinctBy, ← ih, List.filter_map]
      rfl

/-- What is kept is the first with its key. -/
theorem first_of_mem_distinctBy {γ : Type} {key : γ → α} {cs : List γ} {c : γ}
    (member : c ∈ distinctBy key cs) :
    ∃ before after, cs = before ++ c :: after ∧ ∀ b ∈ before, key b ≠ key c := by
  induction cs with
  | nil => cases member
  | cons d cs ih =>
      rcases List.mem_cons.mp member with rfl | later
      · exact ⟨[], cs, rfl, List.forall_mem_nil _⟩
      · obtain ⟨kept, other⟩ := List.mem_filter.mp later
        obtain ⟨before, after, rfl, apart⟩ := ih kept
        exact ⟨d :: before, after, rfl,
          List.forall_mem_cons.mpr ⟨(of_decide_eq_true other).symm, apart⟩⟩

theorem addNew_of_mem (h : a ∈ as) : addNew as a = as := if_pos h

theorem addNew_of_not_mem (h : a ∉ as) : addNew as a = as ++ [a] := if_neg h

theorem mem_addNew : b ∈ addNew as a ↔ b ∈ as ∨ b = a := by
  by_cases h : a ∈ as
  · rw [addNew_of_mem h]
    exact ⟨.inl, fun member => member.elim id fun same => same ▸ h⟩
  · rw [addNew_of_not_mem h, List.mem_append, List.mem_singleton]

theorem addNew_cons (other : b ≠ a) : addNew (b :: as) a = b :: addNew as a := by
  unfold addNew
  by_cases h : a ∈ as
  · rw [if_pos h, if_pos (List.mem_cons_of_mem b h)]
  · rw [if_neg h, if_neg (List.not_mem_cons_of_ne_of_not_mem other.symm h), List.cons_append]

theorem distinct_concat (as : List α) (a : α) : distinct (as ++ [a]) = addNew (distinct as) a := by
  rw [distinct_append]
  by_cases h : a ∈ as
  · rw [addNew_of_mem (mem_distinct.mpr h)]
    simp [distinct, distinctBy, h]
  · rw [addNew_of_not_mem (mt mem_distinct.mp h)]
    simp [distinct, distinctBy, h]

/-- Adding items one after the other keeps the first of each. -/
theorem foldl_addNew (as : List α) : as.foldl addNew [] = distinct as := by
  induction as using List.reverseRecOn with
  | nil => rfl
  | append_singleton as a ih => rw [List.foldl_concat, ih, distinct_concat]

/-- The members of a list, in the order in which they first appear there. -/
structure FirstAppearances (xs as : List α) : Prop where
  mem : ∀ a, a ∈ xs ↔ a ∈ as
  order : xs.Pairwise fun a b => as.idxOf a < as.idxOf b

theorem distinct_firstAppearances (as : List α) : FirstAppearances (distinct as) as := by
  refine ⟨fun a => mem_distinct, ?_⟩
  unfold distinct
  induction as with
  | nil => exact .nil
  | cons a as ih =>
      rw [distinctBy, List.pairwise_cons]
      have later : ∀ b, b ≠ a → (a :: as).idxOf b = as.idxOf b + 1 :=
        fun b other => List.idxOf_cons_ne as other.symm
      have others : ∀ b ∈ (distinctBy id as).filter fun b => id b ≠ id a, b ≠ a :=
        fun b member => of_decide_eq_true (List.mem_filter.mp member).2
      constructor
      · intro b member
        rw [List.idxOf_cons_self, later b (others b member)]
        exact Nat.succ_pos _
      · refine (ih.filter _).imp_of_mem ?_
        intro b c member member' before
        rw [later b (others b member), later c (others c member')]
        exact Nat.succ_lt_succ before

/-! Which entries are kept, told by their places. -/

/-- The entries of a list that stand nowhere before in it. -/
def firstOccurrences (as : List α) : List α :=
  (as.zipIdx.filter fun x => x.1 ∉ as.take x.2).map (·.1)

/-- The entries of a list that stand somewhere before in it. -/
def recurrences (as : List α) : List α :=
  (as.zipIdx.filter fun x => x.1 ∈ as.take x.2).map (·.1)

theorem length_firstOccurrences_add (as : List α) :
    (firstOccurrences as).length + (recurrences as).length = as.length := by
  have parts : as.zipIdx.length = _ :=
    List.length_eq_length_filter_add fun x => decide (x.1 ∈ as.take x.2)
  rw [List.length_zipIdx] at parts
  rw [parts, firstOccurrences, recurrences, List.length_map, List.length_map, Nat.add_comm]
  simp only [decide_not]

/-- One more entry at the end leaves those before it as they were. -/
theorem firstOccurrences_concat (as : List α) (a : α) :
    firstOccurrences (as ++ [a]) = firstOccurrences as ++ if a ∈ as then [] else [a] := by
  have before : ∀ x ∈ as.zipIdx, (as ++ [a]).take x.2 = as.take x.2 := by
    intro x member
    exact List.take_append_of_le_length (List.snd_lt_of_mem_zipIdx member).le
  have kept : as.zipIdx.filter (fun x => x.1 ∉ (as ++ [a]).take x.2) =
      as.zipIdx.filter fun x => x.1 ∉ as.take x.2 := by
    refine List.filter_congr fun x member => ?_
    rw [before x member]
  rw [firstOccurrences, List.zipIdx_append, List.filter_append, List.map_append, kept]
  congr 1
  by_cases met : a ∈ as <;> simp [met]

theorem distinct_eq_firstOccurrences (as : List α) : distinct as = firstOccurrences as := by
  induction as using List.reverseRecOn with
  | nil => rfl
  | append_singleton as a ih =>
      rw [distinct_concat, firstOccurrences_concat, ← ih]
      by_cases met : a ∈ as
      · rw [addNew_of_mem (mem_distinct.mpr met), if_pos met, List.append_nil]
      · rw [addNew_of_not_mem (mt mem_distinct.mp met), if_neg met]

theorem distinct_eq_self_iff : distinct as = as ↔ as.Nodup :=
  ⟨fun same => same ▸ distinct_nodup as, distinctBy_eq_self⟩

end AssessmentPlans
