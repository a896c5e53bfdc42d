import AssessmentPlans.Proofs.Run

/-! What jobs may do, whatever they are answered. A property that every such action keeps is
kept by every run. -/
namespace AssessmentPlans

variable {α β : Type} {allowed allowed' : Action → Prop}

/-- No other actions are in the program. -/
def Program.Within (allowed : Action → Prop) : Program α → Prop
  | .done _ => True
  | .act action next => allowed action ∧ ∀ answer, (next answer).Within allowed

theorem Program.Within.bind {p : Program α} {f : α → Program β} (first : p.Within allowed)
    (next : ∀ a, (f a).Within allowed) : (p.bind f).Within allowed := by
  induction p with
  | done a => exact next a
  | act action rest ih =>
      obtain ⟨here, after⟩ := first
      exact ⟨here, fun answer => ih answer (after answer)⟩

theorem Program.Within.mono {p : Program α} (h : p.Within allowed)
    (wider : ∀ action, allowed action → allowed' action) : p.Within allowed' := by
  induction p with
  | done a => trivial
  | act action next ih =>
      obtain ⟨here, after⟩ := h
      exact ⟨wider action here, fun answer => ih answer (after answer)⟩

theorem Program.Within.run {p : Program α} (h : p.Within allowed) {inv : World → Prop}
    (kept : ∀ action, allowed action → action.Keeps inv) {w : World} (hw : inv w) :
    inv (p.run w).2 := by
  induction p generalizing w with
  | done a => exact hw
  | act action next ih =>
      obtain ⟨here, after⟩ := h
      exact ih _ (after _) (kept action here w hw)

namespace Job

/-- No other actions are in the job. -/
def Within (allowed : Action → Prop) (job : Job α) : Prop := Program.Within allowed (ExceptT.run job)

namespace Within

variable {job : Job α}

theorem mono (h : Within allowed job) (wider : ∀ action, allowed action → allowed' action) :
    Within allowed' job :=
  Program.Within.mono h wider

theorem pure {a : α} : Within allowed (Pure.pure a) := trivial

theorem throw {fault : Fault} : Within allowed (MonadExcept.throw fault : Job α) := trivial

theorem throw_bind {fault : Fault} {f : α → Job β} :
    Within allowed (MonadExcept.throw fault >>= f : Job β) := trivial

theorem bind {f : α → Job β} (first : Within allowed job) (next : ∀ a, Within allowed (f a)) :
    Within allowed (job >>= f) := by
  refine Program.Within.bind first ?_
  intro result
  cases result with
  | ok a => exact next a
  | error fault => trivial

theorem perform {action : Action} (h : allowed action) : Within allowed (Job.perform action) :=
  ⟨h, fun _ => trivial⟩

theorem orFail {fault : FileError → Fault} {answer : Except FileError α} :
    Within allowed (Job.orFail fault answer) := by
  cases answer with
  | ok a => exact pure
  | error e => exact throw

theorem ofExcept {result : Except Fault α} : Within allowed (Job.ofExcept result) := by
  cases result with
  | ok a => exact pure
  | error fault => exact throw

theorem forM {f : α → Job Unit} {xs : List α} (each : ∀ x, Within allowed (f x)) :
    Within allowed (xs.forM f) := by
  induction xs with
  | nil => exact pure
  | cons x xs ih => exact bind (each x) fun _ => ih

theorem run (h : Within allowed job) {inv : World → Prop}
    (kept : ∀ action, allowed action → action.Keeps inv) {w : World} (met : inv w) : inv (w.run job).2 :=
  Program.Within.run h kept met

end Within
end Job
end AssessmentPlans
