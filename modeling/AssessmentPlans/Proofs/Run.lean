import AssessmentPlans.World

/-! Runs of programs and jobs, put together from the runs of their parts, and what is known of the
answers that a run is given, for instance that none of them is an error. -/
namespace AssessmentPlans

variable {α β : Type}

theorem Program.run_bind (p : Program α) (f : α → Program β) (w : World) :
    (p.bind f).run w = (f (p.run w).1).run (p.run w).2 := by
  induction p generalizing w with
  | done a => rfl
  | act action next ih => exact ih _ _

namespace Job

theorem throw_bind (fault : Fault) (f : α → Job β) : (throw fault >>= f : Job β) = throw fault := rfl

end Job

namespace World

variable (w : World)

theorem run_orFail (fault : FileError → Fault) (a : α) :
    w.run (Job.orFail fault (.ok a)) = (.ok a, w) := rfl

theorem run_attempt (job : Job α) :
    w.run (Job.attempt job) = (.ok (w.run job).1, (w.run job).2) := by
  have runs : w.run (Job.attempt job) = _ := Program.run_bind (ExceptT.run job) _ w
  exact runs

theorem run_bind (job : Job α) (f : α → Job β) :
    w.run (job >>= f) = match w.run job with
      | (.ok a, after) => after.run (f a)
      | (.error fault, after) => (.error fault, after) := by
  have runs : w.run (job >>= f) = _ := Program.run_bind (ExceptT.run job) _ w
  rw [runs]
  unfold World.run
  cases (ExceptT.run job).run w with
  | mk result after =>
      cases result with
      | ok a => rfl
      | error fault => rfl

variable {w}

theorem run_bind_of_ok {job : Job α} {f : α → Job β} {a : α} {after : World}
    (h : w.run job = (.ok a, after)) : w.run (job >>= f) = after.run (f a) := by
  rw [run_bind, h]

theorem run_of_toOption {job : Job α} {a : α} (h : (w.run job).1.toOption = some a) :
    w.run job = (.ok a, (w.run job).2) := by
  cases run : w.run job with
  | mk result after =>
      rw [run] at h
      cases result with
      | ok b =>
          cases h
          rfl
      | error fault => cases h

/-- A sequence of jobs succeeds where each of them does. -/
theorem run_bind_eq_ok {job : Job α} {f : α → Job β} {b : β} :
    (w.run (job >>= f)).1 = .ok b ↔
      ∃ a, (w.run job).1 = .ok a ∧ ((w.run job).2.run (f a)).1 = .ok b := by
  rw [run_bind]
  split
  · next a after run =>
    rw [run]
    constructor
    · intro h
      exact ⟨a, rfl, h⟩
    · rintro ⟨_, same, h⟩
      cases same
      exact h
  · next fault after run =>
    rw [run]
    refine iff_of_false nofun ?_
    rintro ⟨a, h, _⟩
    cases h

end World

/-- What may be known of an action and the answer to it. -/
def Knowledge : Type := (action : Action) → action.Answer → Prop

/-- Nothing is known. -/
def Knowledge.nothing : Knowledge := fun _ _ => True

/-- The answer is not an error. -/
def Knowledge.success : Knowledge
  | .readText _, answer => ∃ text, answer = .ok text
  | .readLines _, answer => ∃ lines, answer = .ok lines
  | .list _, answer => ∃ names, answer = .ok names
  | .makeDirectory _, answer | .create _, answer | .write _ _, answer | .sync _, answer
  | .rename _ _, answer | .remove _, answer | .print _, answer => answer = .ok ()
  | .isPresent _, _ | .isFile _, _ | .now, _ | .freshId, _ | .tell _, _ | .warn _, _ => True

instance Knowledge.decidableSuccess (action : Action) (answer : action.Answer) :
    Decidable (Knowledge.success action answer) :=
  match action, answer with
  | .readText _, .ok a | .readLines _, .ok a | .list _, .ok a => .isTrue ⟨a, rfl⟩
  | .makeDirectory _, .ok () | .create _, .ok () | .write _ _, .ok () | .sync _, .ok ()
  | .rename _ _, .ok () | .remove _, .ok () | .print _, .ok () => .isTrue rfl
  | .readText _, .error _ | .readLines _, .error _ | .list _, .error _ | .makeDirectory _, .error _
  | .create _, .error _ | .write _ _, .error _ | .sync _, .error _ | .rename _ _, .error _
  | .remove _, .error _ | .print _, .error _ => .isFalse nofun
  | .isPresent _, _ | .isFile _, _ | .now, _ | .freshId, _ | .tell _, _ | .warn _, _ =>
    .isTrue trivial

/-- The path is not read. -/
def Knowledge.avoids (p : Path) : Knowledge := fun action _ => action ≠ .readText p

instance Knowledge.decidableAvoids (p : Path) (action : Action) (answer : action.Answer) :
    Decidable (Knowledge.avoids p action answer) :=
  inferInstanceAs (Decidable (action ≠ .readText p))

def Knowledge.and (R R' : Knowledge) : Knowledge := fun action answer =>
  R action answer ∧ R' action answer

instance Knowledge.decidableAnd {R R' : Knowledge} (action : Action) (answer : action.Answer)
    [Decidable (R action answer)] [Decidable (R' action answer)] :
    Decidable (Knowledge.and R R' action answer) :=
  inferInstanceAs (Decidable (R action answer ∧ R' action answer))

/-- The knowledge is right for each action of the run. -/
def Program.Along {α : Type} (R : Knowledge) (w : World) : Program α → Prop
  | .done _ => True
  | .act action next =>
    R action (w.perform action).1 ∧ (next (w.perform action).1).Along R (w.perform action).2

/-- The action keeps a property of worlds. -/
def Action.Keeps (inv : World → Prop) (action : Action) : Prop :=
  ∀ w, inv w → inv (w.perform action).2

variable {R : Knowledge}

theorem Program.along_bind {p : Program α} {f : α → Program β} {w : World} :
    (p.bind f).Along R w ↔ p.Along R w ∧ (f (p.run w).1).Along R (p.run w).2 := by
  induction p generalizing w with
  | done a => exact iff_and_self.mpr fun _ => trivial
  | act action next ih => exact (and_congr_right fun _ => ih _).trans and_assoc.symm

theorem Program.along_nothing (p : Program α) (w : World) : p.Along .nothing w := by
  induction p generalizing w with
  | done a => trivial
  | act action next ih => exact ⟨trivial, ih _ _⟩

theorem Program.Along.mono {R' : Knowledge} {p : Program α} {w : World} (h : p.Along R w)
    (wider : ∀ action answer, R action answer → R' action answer) : p.Along R' w := by
  induction p generalizing w with
  | done a => trivial
  | act action next ih =>
      obtain ⟨here, rest⟩ := h
      exact ⟨wider action _ here, ih _ rest⟩

instance Program.decidableAlong [known : ∀ action answer, Decidable (R action answer)] :
    (p : Program α) → (w : World) → Decidable (p.Along R w)
  | .done _, _ => .isTrue trivial
  | .act action next, w =>
    @instDecidableAnd _ _ (known action (w.perform action).1)
      (decidableAlong (next (w.perform action).1) (w.perform action).2)

namespace Job

/-- The knowledge is right for each action of the run. -/
def Along (R : Knowledge) (w : World) (job : Job α) : Prop := Program.Along R w (ExceptT.run job)

instance decidableAlong [∀ action answer, Decidable (R action answer)] (w : World) (job : Job α) :
    Decidable (Along R w job) :=
  inferInstanceAs (Decidable (Program.Along R w (ExceptT.run job)))

theorem along_nothing (job : Job α) (w : World) : Along .nothing w job := Program.along_nothing _ w

namespace Along

variable {job : Job α} {w : World}

theorem mono {R' : Knowledge} (h : Along R w job)
    (wider : ∀ action answer, R action answer → R' action answer) : Along R' w job :=
  Program.Along.mono h wider

theorem perform {action : Action} (h : R action (w.perform action).1) : Along R w (Job.perform action) :=
  ⟨h, trivial⟩

theorem bind {f : α → Job β} {after : World} {a : α} (first : Along R w job)
    (run : w.run job = (.ok a, after)) (rest : Along R after (f a)) : Along R w (job >>= f) := by
  refine Program.along_bind.mpr ⟨first, ?_⟩
  have run : Program.run w job = (.ok a, after) := run
  rw [run]
  exact rest

theorem attempt (h : Along R w job) : Along R w (Job.attempt job) := Program.along_bind.mpr ⟨h, trivial⟩

end Along

end Job
end AssessmentPlans
