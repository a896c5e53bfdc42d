import AssessmentPlans.Proofs.Yaml.Block
import AssessmentPlans.Proofs.Yaml.Quoted
import AssessmentPlans.Proofs.Yaml.Scalar

/-! What is written holds only characters that may stand in a text. -/
namespace AssessmentPlans.Yaml

section Allowed

variable {cs : List Char} {c : Char}

/-- All characters may stand in a text. -/
def Allowed (cs : List Char) : Prop := ∀ c ∈ cs, isAllowed c = true

theorem allowed_append {ds : List Char} (h : Allowed cs) (h' : Allowed ds) : Allowed (cs ++ ds) :=
  List.forall_mem_append.mpr ⟨h, h'⟩

theorem allowed_cons (first : isAllowed c = true) (later : Allowed cs) : Allowed (c :: cs) :=
  List.forall_mem_cons.mpr ⟨first, later⟩

theorem allowed_quoted (quote : isAllowed c = true) (within : Allowed cs) :
    Allowed (c :: cs ++ [c]) :=
  allowed_append (allowed_cons quote within) (List.forall_mem_singleton.mpr quote)

theorem allowed_of_visible (visible : isVisible c = true) : isAllowed c = true := by
  simp only [isVisible, Bool.or_eq_true, Bool.and_eq_true, decide_eq_true_eq, beq_iff_eq,
    bne_iff_ne] at visible
  rcases visible with (((line | ascii) | low) | high) | far
  · obtain rfl : c = '\n' := Char.toNat_inj.mp line
    rfl
  all_goals simp only [isAllowed, Bool.or_eq_true, Bool.and_eq_true, decide_eq_true_eq, beq_iff_eq]
  all_goals omega

theorem escapeChar_allowed (c : Char) : Allowed (escapeChar c) := by
  by_cases letter : c ∈ lettered
  · have all : lettered.all (fun c => (escapeChar c).all isAllowed) = true := by decide
    exact List.all_eq_true.mp (List.all_eq_true.mp all c letter)
  · rw [escapeChar_other letter]
    cases visible : isVisible c with
    | true => exact List.forall_mem_singleton.mpr (allowed_of_visible visible)
    | false =>
        by_cases small : c.toNat ≤ 0xFF
        · have digits : ∀ n < 256, (paddedHex 2 n).all isAllowed = true := by decide +kernel
          have here := List.all_eq_true.mp (digits c.toNat (Nat.lt_succ_of_le small))
          rw [if_neg Bool.false_ne_true, if_pos small]
          exact allowed_cons rfl (allowed_cons rfl here)
        · rcases hidden_of_large visible (Nat.not_le.mp small) with rfl | rfl | rfl
          all_goals exact List.all_eq_true.mp (by decide)

theorem singleRest_allowed (broken : Bool) (allowed : Allowed cs) :
    Allowed (singleRest broken cs) := by
  have margin : Allowed indentChars := List.all_eq_true.mp rfl
  induction cs generalizing broken with
  | nil => cases broken <;> exact List.all_eq_true.mp rfl
  | cons c cs ih =>
      obtain ⟨first, later⟩ := List.forall_mem_cons.mp allowed
      rw [singleRest]
      split
      · exact allowed_cons first (ih true later)
      · refine allowed_append (allowed_append ?_ ?_) (ih false later)
        · split
          · exact margin
          · exact List.forall_mem_nil _
        · split
          · exact List.all_eq_true.mp rfl
          · exact List.forall_mem_singleton.mpr first

theorem literalRest_allowed (broken : Bool) (allowed : Allowed cs) :
    Allowed (literalRest broken cs) := by
  have margin : Allowed indentChars := List.all_eq_true.mp rfl
  induction cs generalizing broken with
  | nil => exact List.forall_mem_nil _
  | cons c cs ih =>
      obtain ⟨first, later⟩ := List.forall_mem_cons.mp allowed
      rw [literalRest]
      split
      · exact allowed_cons first (ih true later)
      · refine allowed_append ?_ (allowed_cons first (ih false later))
        split
        · exact margin
        · exact List.forall_mem_nil _

theorem literalHeader_allowed (cs : List Char) : Allowed (literalHeader cs) := by
  rw [literalHeader_eq]
  refine allowed_append (allowed_cons rfl ?_) ?_
  · split <;> exact List.all_eq_true.mp rfl
  · cases chompingFrom cs.reverse <;> exact List.all_eq_true.mp rfl

theorem scalarChars_allowed (s : String) : Allowed (scalarChars s) := by
  have newline : Allowed ['\n'] := List.all_eq_true.mp rfl
  have allowed {style : ScalarStyle} (h : styleFor s = style) (other : style ≠ .double) :
      Allowed s.toList := fun c hc => allowed_of_visible ((styleFor_visible h other).2 c hc)
  rw [scalarChars]
  cases style : styleFor s with
  | plain => exact allowed_append (allowed style (by decide)) newline
  | single =>
      have rest := singleRest_allowed false (allowed style (by decide))
      exact allowed_append (allowed_quoted rfl rest) newline
  | double =>
      have rest : Allowed (s.toList.flatMap escapeChar) := by
        intro d hd
        obtain ⟨c, _, member⟩ := List.mem_flatMap.mp hd
        exact escapeChar_allowed c d member
      exact allowed_append (allowed_quoted rfl rest) newline
  | literal =>
      have rest := literalRest_allowed true (allowed style (by decide))
      refine allowed_append (allowed_append (literalHeader_allowed _) (allowed_cons rfl rest)) ?_
      split
      · exact List.forall_mem_nil _
      · exact newline
  | folded => exact absurd style styleFor_folded

end Allowed

end AssessmentPlans.Yaml
