import AssessmentPlans.Instant.Basic
import Mathlib.Order.Defs.LinearOrder

/-! The order of instants. -/
namespace AssessmentPlans.Instant

theorem lt_iff {a b : Instant} : a < b ↔ a.day < b.day ∨ a.day = b.day ∧
    (a.second < b.second ∨ a.second = b.second ∧ a.nano < b.nano) :=
  Iff.rfl

/-- No later than another instant. -/
def le (a b : Instant) : Prop := ¬b < a

theorem le_iff {a b : Instant} : le a b ↔ a.day < b.day ∨ a.day = b.day ∧
    (a.second < b.second ∨ a.second = b.second ∧ a.nano ≤ b.nano) := by
  rw [le, lt_iff]
  omega

instance : LE Instant := ⟨le⟩

instance : LinearOrder Instant where
  le := le
  lt := lt
  le_refl a := by rw [le_iff]; omega
  le_trans a b c h h' := by
    rw [le_iff] at *
    omega
  lt_iff_le_not_ge a b := by
    change a < b ↔ le a b ∧ ¬le b a
    rw [le_iff, le_iff, lt_iff]
    omega
  le_antisymm a b h h' := by
    rw [le_iff] at *
    cases a
    cases b
    simp only [Instant.mk.injEq]
    dsimp only at h h'
    omega
  le_total a b := by
    rw [le_iff, le_iff]
    omega
  toDecidableLE a b := inferInstanceAs (Decidable ¬b < a)
  toDecidableLT a b := inferInstanceAs (Decidable (a < b))

theorem le_addSeconds {t : Instant} (within : t.second < secondsPerDay) (n : Nat) :
    t ≤ t.addSeconds n := by
  refine le_iff.mpr ?_
  simp only [addSeconds, secondsPerDay] at within ⊢
  omega

theorem addSeconds_le_addSeconds {a b : Instant} (within : a.second < secondsPerDay)
    (within' : b.second < secondsPerDay) (h : a ≤ b) (n : Nat) :
    a.addSeconds n ≤ b.addSeconds n := by
  have h := le_iff.mp h
  refine le_iff.mpr ?_
  simp only [addSeconds, secondsPerDay] at within within' ⊢
  omega

end AssessmentPlans.Instant
