import AssessmentPlans.Proofs.Workspace.Standing

/-! Two jobs that contend for the lock of a workspace, their actions in any order. Between the
look that finds no lock file and the making of one a second look can find nothing either, and
then both jobs go on. As long as this does not happen, one of them has the lock and its effect
alone, and the other one waits for its turn or gives up. -/
namespace AssessmentPlans

open Job

/-- Up to the deadline, and so that a lock made then lasts to the deadline. -/
structure Instant.Due (t deadline : Instant) : Prop where
  timely : t.Timely
  before : t ≤ deadline
  lasts : deadline ≤ t.addSeconds Lock.lifetime

theorem World.wait_due {deadline t : Instant} {x : World} (h : x.time.Due deadline) (timely : t.Timely)
    (before : t ≤ deadline) : (x.wait t).time.Due deadline := by
  unfold wait
  split
  · next later =>
    refine ⟨timely, before, h.lasts.trans ?_⟩
    exact Instant.addSeconds_le_addSeconds h.timely.now.second timely.now.second (le_of_lt later) _
  · exact h

theorem Side.step_time {α : Type} (s : Side α) (w : World) : (s.step w).1.time = w.time := by
  cases left : s.program with
  | done a => rw [s.step_done left]
  | act action next =>
      rw [s.step_act left]
      exact w.perform_time action

theorem Action.Looks.not_secured {p : Path} {action : Action} (h : action.Looks) (answer : action.Answer) :
    Deed.secured p ⟨action, answer⟩ = false := by
  cases action with
  | sync q => exact h.elim
  | _ => rfl

namespace Workspace

variable {w : Workspace} {deadline : Instant} {x y v : World} {launch launch' : Launch} {α : Type}
  {first second job : Job α}

/-- The side has found no lock file, and has not made one yet. -/
def IsTaking (w : Workspace) (s : Side α) : Prop :=
  s.isRunning = true ∧ s.log.any (Deed.foundNothing w.lockPath) = true ∧
    s.log.any (Deed.creates w.lockPath) = false

instance (s : Side α) : Decidable (w.IsTaking s) := inferInstanceAs (Decidable (_ ∧ _ ∧ _))

/-- The side has taken the lock, and is not over. -/
def IsHolding (w : Workspace) (s : Side α) : Prop :=
  s.isRunning = true ∧ s.log.any (Deed.secured w.lockPath) = true

instance (s : Side α) : Decidable (w.IsHolding s) := inferInstanceAs (Decidable (_ ∧ _))

/-! What the jobs do. -/

/-- What is so, depending on which of two jobs have been done. Each job leads from what is so
without it to what is so with it, if it does not fail. -/
structure Effects (w : Workspace) (R : Knowledge) (first second : Job α) where
  so : Bool → Bool → World → Prop
  steady : ∀ a b, w.Steady (so a b)
  within : Within w.Saves first
  within' : Within w.Saves second
  effect : ∀ b x, so false b x →
    first.Always (Calm R) (fun _ => True) (fun _ => so true b) (fun _ _ => True) x
  effect' : ∀ a x, so a false x →
    second.Always (Calm R) (fun _ => True) (fun _ => so a true) (fun _ _ => True) x

namespace Effects

variable {R : Knowledge}

def swap (E : Effects w R first second) : Effects w R second first where
  so a b := E.so b a
  steady a b := E.steady b a
  within := E.within'
  within' := E.within
  effect := E.effect'
  effect' := E.effect

/-- What is so if it is known of both jobs whether they have been done. -/
def At (E : Effects w R first second) (i j : Option Bool) (x : World) : Prop :=
  ∀ a b, i = some a → j = some b → E.so a b x

variable {E : Effects w R first second} {i j : Option Bool}

theorem at_swap : E.swap.At j i x ↔ E.At i j x :=
  ⟨fun h a b left right => h b a right left, fun h a b left right => h b a right left⟩

theorem At.weaken {j' : Option Bool} (h : E.At i j x) (known : j' = j ∨ j' = none) : E.At i j' x := by
  rcases known with rfl | rfl
  · exact h
  · exact fun _ _ _ => nofun

theorem At.of_some {a b : Bool} (h : E.so a b x) : E.At (some a) (some b) x := by
  rintro _ _ ⟨⟩ ⟨⟩
  exact h

theorem at_steady : w.Steady (E.At i j) :=
  ⟨fun action locks x h a b left right => (E.steady a b).kept action locks x (h a b left right),
    fun x y passed h a b left right => (E.steady a b).passes x y passed (h a b left right)⟩

theorem At.effect (h : E.At (some false) j x) :
    first.Always (Calm R) (fun _ => True) (fun _ => E.At (some true) j) (fun _ _ => True) x := by
  cases j with
  | none =>
      refine Program.Always.of_forall _ _ (fun _ => trivial) fun result y => ?_
      cases result with
      | ok a => exact fun _ _ _ => nofun
      | error fault => trivial
  | some b =>
      exact (E.effect b x (h false b rfl rfl)).mono (fun _ h => h) (fun _ _ => .of_some) fun _ _ h => h

end Effects

/-! A side that does not have the lock. -/

/-- The side has not begun, or gives up, or is over. If it has not failed it is known whether
its job has been done. -/
inductive Rests (w : Workspace) (R : Knowledge) (launch : Launch) (job : Job α) :
    Option Bool → Side (Except Fault α) → Prop where
  | waiting : Rests w R launch job (some false) (.start (ExceptT.run (w.locked launch job)))
  | withdrawing {s : Side (Except Fault α)} (course : s.program.Withdraws R)
    (clean : s.log.any (Deed.secured w.lockPath) = false) : Rests w R launch job none s
  | failed {s : Side (Except Fault α)} {fault : Fault} (ended : s.program = .done (.error fault)) :
    Rests w R launch job none s
  | succeeded {s : Side (Except Fault α)} {a : α} (ended : s.program = .done (.ok a)) :
    Rests w R launch job (some true) s

namespace Rests

variable {R : Knowledge} {s : Side (Except Fault α)} {j : Option Bool}

theorem not_holding (h : w.Rests R launch job j s) : ¬w.IsHolding s := by
  rintro ⟨running, secured⟩
  cases h with
  | waiting => cases secured
  | withdrawing course clean => cases clean.symm.trans secured
  | failed ended => cases (Side.isRunning_eq_false ended).symm.trans running
  | succeeded ended => cases (Side.isRunning_eq_false ended).symm.trans running

theorem of_succeeds (h : w.Rests R launch job j s) (success : s.succeeds = true) : j = some true := by
  obtain ⟨a, ended⟩ := Side.succeeds_iff.mp success
  cases h with
  | waiting => cases ended
  | withdrawing course clean =>
      rw [ended] at course
      obtain ⟨fault, ⟨⟩⟩ := course
  | failed ended' => cases ended.symm.trans ended'
  | succeeded ended' => rfl

end Rests

/-- Up to the deadline the world answers as is known. -/
theorem Fenced.answers (h : w.Fenced deadline x) (passed : x.Passes v) (due : v.time.Due deadline)
    (action : Action) :
    Calm (w.Until deadline) x action (v.perform action).1 (v.perform action).2 := by
  refine ⟨v, passed, due.timely, rfl, ?_⟩
  cases action with
  | readText p =>
      rintro rfl s l read parsed
      exact (h.passes passed).sees (World.Sees.of_readText read) parsed
  | now => exact ⟨due.before, due.lasts⟩
  | _ => trivial

theorem start_step : (Side.start (ExceptT.run (w.locked launch job))).step v =
    (v, ⟨ExceptT.run (if v.files.isPresent v.here w.lockPath then w.confront launch job
      else w.claim launch job), [⟨.isPresent w.lockPath, v.files.isPresent v.here w.lockPath⟩]⟩) := by
  rw [locked_eq]
  rfl

/-- A side without the lock goes on without it, or finds no lock file. -/
theorem Rests.step {j : Option Bool} {s : Side (Except Fault α)}
    (h : w.Rests (w.Until deadline) launch job j s) (fenced : w.Fenced deadline x) (passed : x.Passes v)
    (due : v.time.Due deadline) :
    x.Passes (s.step v).1 ∧
      ((∃ j', (j' = j ∨ j' = none) ∧ w.Rests (w.Until deadline) launch job j' (s.step v).2) ∨
        j = some false ∧ w.Unheld (s.step v).1 ∧
          (s.step v).2 = ⟨ExceptT.run (w.claim launch job), [⟨.isPresent w.lockPath, false⟩]⟩) := by
  cases h with
  | waiting =>
      rw [start_step]
      refine ⟨passed, ?_⟩
      cases present : v.files.isPresent v.here w.lockPath with
      | false => exact .inr ⟨rfl, present, rfl⟩
      | true => exact .inl ⟨none, .inr rfl, .withdrawing confront_withdraws rfl⟩
  | withdrawing course clean =>
      cases left : s.program with
      | done result =>
          rw [s.step_done left]
          exact ⟨passed, .inl ⟨none, .inl rfl, .withdrawing course clean⟩⟩
      | act action next =>
          rw [left] at course
          have answered := fenced.answers passed due action
          rw [s.step_act left]
          refine ⟨answered.passes course.1.passive, .inl ⟨none, .inl rfl, .withdrawing ?_ ?_⟩⟩
          · exact course.2 _ answered.known
          · rw [List.any_cons, course.1.not_secured, clean]
            rfl
  | failed ended =>
      rw [s.step_done ended]
      exact ⟨passed, .inl ⟨none, .inl rfl, .failed ended⟩⟩
  | succeeded ended =>
      rw [s.step_done ended]
      exact ⟨passed, .inl ⟨some true, .inl rfl, .succeeded ended⟩⟩

/-! A side that has the lock, or is about to. -/

/-- The first side has found no lock file, and goes on to its effect as long as it is not
disturbed. The second side rests. -/
structure Busy (E : Effects w (w.Until deadline) first second) (launch' : Launch) (j : Option Bool)
    (x : World) (a b : Side (Except Fault α)) : Prop where
  running : a.isRunning = true
  looked : a.log.any (Deed.foundNothing w.lockPath) = true
  course : a.program.Always (Recorded (Calm (w.Until deadline))) (w.Guard deadline)
    (fun result t => w.Fenced deadline t.1 ∧ ∀ r, result = .ok r → E.At (some true) j t.1) (x, a.log)
  other : w.Rests (w.Until deadline) launch' second j b

structure Quiet (E : Effects w (w.Until deadline) first second) (launch launch' : Launch)
    (x : World) (a b : Side (Except Fault α)) : Prop where
  fenced : w.Fenced deadline x
  sides : ∃ i j, w.Rests (w.Until deadline) launch first i a ∧
    w.Rests (w.Until deadline) launch' second j b ∧ E.At i j x

/-- At least one of the sides rests. -/
inductive Regulated (E : Effects w (w.Until deadline) first second) (launch launch' : Launch)
    (x : World) (a b : Side (Except Fault α)) : Prop where
  | quiet (h : Quiet E launch launch' x a b)
  | left {j : Option Bool} (h : Busy E launch' j x a b)
  | right {i : Option Bool} (h : Busy E.swap launch i x b a)

section Steps

variable {E : Effects w (w.Until deadline) first second} {a b : Side (Except Fault α)} {i j : Option Bool}

theorem Busy.guard (h : Busy E launch' j x a b) : w.Guard deadline (x, a.log) := by
  have running := h.running
  have course := h.course
  cases left : a.program with
  | done result => cases (Side.isRunning_eq_false left).symm.trans running
  | act action next =>
      rw [left] at course
      exact course.1

theorem Busy.step (h : Busy E launch' j x a b) (passed : x.Passes v) (due : v.time.Due deadline) :
    Regulated E launch launch' (a.step v).1 (a.step v).2 b := by
  have fenced := h.guard.1
  have running := h.running
  have course := h.course
  cases left : a.program with
  | done result => cases (Side.isRunning_eq_false left).symm.trans running
  | act action next =>
      rw [left] at course
      have after := course.2 _ (_, _) ⟨fenced.answers passed due action, rfl⟩
      rw [a.step_act left]
      cases rest : next (v.perform action).1 with
      | done result =>
          rw [rest] at after
          cases result with
          | ok r => exact .quiet ⟨after.1, some true, j, .succeeded rfl, h.other, after.2 r rfl⟩
          | error fault => exact .quiet ⟨after.1, none, j, .failed rfl, h.other, fun _ _ => nofun⟩
      | act action' next' =>
          rw [rest] at after
          refine .left ⟨rfl, ?_, after, h.other⟩
          rw [List.any_cons, h.looked, Bool.or_true]

theorem Busy.idle {b' : Side (Except Fault α)} {j' : Option Bool} (h : Busy E launch' j x a b)
    (passed : x.Passes y) (known : j' = j ∨ j' = none)
    (other : w.Rests (w.Until deadline) launch' second j' b') : Busy E launch' j' y a b' := by
  refine ⟨h.running, h.looked, ?_, other⟩
  refine (h.course.passes passed ?_ ?_).mono (fun _ h => h) ?_
  · rintro ⟨fenced, none | present⟩
    · exact ⟨fenced.passes passed, .inl none⟩
    · refine ⟨fenced.passes passed, .inr ?_⟩
      dsimp only
      rw [passed.files, passed.here]
      exact present
  · rintro result ⟨fenced, met⟩
    exact ⟨fenced.passes passed, fun r ok => E.at_steady.passes x y passed (met r ok)⟩
  · rintro result t ⟨fenced, met⟩
    exact ⟨fenced, fun r ok => (met r ok).weaken known⟩

theorem Busy.isTaking (h : Busy E launch' j x a b) (passed : x.Passes y) (absent : w.Unheld y) :
    w.IsTaking a := by
  refine ⟨h.running, h.looked, ?_⟩
  rcases h.guard.2 with none | present
  · exact none
  · rw [Unheld, passed.files, passed.here] at absent
    cases absent.symm.trans present

/-- Whoever finds no lock file while the other side rests is busy from then on. -/
theorem Busy.enter (other : w.Rests (w.Until deadline) launch' second j b) (fenced : w.Fenced deadline x)
    (effects : E.At (some false) j x) :
    Busy E launch' j x ⟨ExceptT.run (w.claim launch first), [⟨.isPresent w.lockPath, false⟩]⟩ b := by
  have early : w.Early deadline (E.At (some false) j) (x, [⟨.isPresent w.lockPath, false⟩]) :=
    ⟨fenced, effects, rfl⟩
  have course : (w.claim launch first).Always _ _ _ _ _ :=
    claim_stands Effects.at_steady Effects.at_steady E.within (fun _ => Effects.At.effect) early
  refine ⟨rfl, by simp [Deed.foundNothing], ?_, other⟩
  refine Program.Always.mono course (fun _ h => h) fun result t met => ?_
  cases result with
  | ok r => exact ⟨met.1, fun _ _ => met.2⟩
  | error fault => exact ⟨met, nofun⟩

theorem isTaking_claim :
    w.IsTaking ⟨ExceptT.run (w.claim launch job), [⟨.isPresent w.lockPath, false⟩]⟩ :=
  ⟨rfl, by simp [Deed.foundNothing], rfl⟩

namespace Regulated

theorem swap (h : Regulated E launch launch' x a b) : Regulated E.swap launch' launch x b a := by
  cases h with
  | quiet h =>
      obtain ⟨fenced, i, j, left, right, effects⟩ := h
      exact .quiet ⟨fenced, j, i, right, left, Effects.at_swap.mpr effects⟩
  | left h => exact .right h
  | right h => exact .left h

theorem step (h : Regulated E launch launch' x a b) (passed : x.Passes v) (due : v.time.Due deadline)
    (apart : ¬(w.IsTaking (a.step v).2 ∧ w.IsTaking b)) :
    Regulated E launch launch' (a.step v).1 (a.step v).2 b := by
  cases h with
  | quiet h =>
      -- Nobody has the lock, so whoever finds no lock file is on its way to it alone.
      obtain ⟨fenced, i, j, left, right, effects⟩ := h
      obtain ⟨passed, ⟨i', known, left⟩ | ⟨rfl, absent, entered⟩⟩ := left.step fenced passed due
      · have effects := (Effects.at_swap.mpr effects).weaken known
        exact .quiet ⟨fenced.passes passed, i', j, left, right,
          Effects.at_swap.mp (Effects.at_steady.passes _ _ passed effects)⟩
      · rw [entered]
        exact .left (.enter right (fenced.passes passed) (Effects.at_steady.passes _ _ passed effects))
  | left h => exact h.step passed due
  | right h =>
      -- The second side has made its lock file, or both sides are about to make one.
      obtain ⟨passed, ⟨i', known, left⟩ | ⟨rfl, absent, entered⟩⟩ := h.other.step h.guard.1 passed due
      · exact .right (h.idle passed known left)
      · refine absurd ⟨?_, h.isTaking passed absent⟩ apart
        rw [entered]
        exact isTaking_claim

theorem not_holding (h : Regulated E launch launch' x a b) : ¬(w.IsHolding a ∧ w.IsHolding b) := by
  rintro ⟨first, second⟩
  cases h with
  | quiet h =>
      obtain ⟨_, _, _, left, _⟩ := h
      exact left.not_holding first
  | left h => exact h.other.not_holding second
  | right h => exact h.other.not_holding first

theorem of_succeeds (h : Regulated E launch launch' x a b) (success : a.succeeds = true)
    (success' : b.succeeds = true) : E.so true true x := by
  cases h with
  | quiet h =>
      obtain ⟨_, i, j, left, right, effects⟩ := h
      exact effects true true (left.of_succeeds success) (right.of_succeeds success')
  | left h =>
      obtain ⟨_, ended⟩ := Side.succeeds_iff.mp success
      cases (Side.isRunning_eq_false ended).symm.trans h.running
  | right h =>
      obtain ⟨_, ended⟩ := Side.succeeds_iff.mp success'
      cases (Side.isRunning_eq_false ended).symm.trans h.running

end Regulated
end Steps

def contest (w : Workspace) (launch launch' : Launch) (first second : Job α) (x : World) :
    Scene (Except Fault α) :=
  ⟨x, .start (ExceptT.run (w.locked launch first)), .start (ExceptT.run (w.locked launch' second))⟩

/-- The two sides are not both between finding no lock file and making one. -/
def Apart (w : Workspace) (scene : Scene (Except Fault α)) : Prop :=
  ¬(w.IsTaking scene.left ∧ w.IsTaking scene.right)

instance : DecidablePred (w.Apart : Scene (Except Fault α) → Prop) :=
  fun _ => inferInstanceAs (Decidable ¬_)

/-- The two sides do not both have the lock. -/
def Excludes (w : Workspace) (scene : Scene (Except Fault α)) : Prop :=
  ¬(w.IsHolding scene.left ∧ w.IsHolding scene.right)

instance : DecidablePred (w.Excludes : Scene (Except Fault α) → Prop) :=
  fun _ => inferInstanceAs (Decidable ¬_)

theorem Regulated.move {E : Effects w (w.Until deadline) first second} {scene : Scene (Except Fault α)}
    {m : Move} (h : Regulated E launch launch' scene.world scene.left scene.right)
    (due : (scene.world.wait m.time).time.Due deadline) (apart : w.Apart (scene.step m)) :
    Regulated E launch launch' (scene.step m).world (scene.step m).left (scene.step m).right := by
  have passed := scene.world.passes_wait m.time
  unfold Scene.step at apart ⊢
  cases side : m.left with
  | true =>
      rw [side] at apart
      exact h.step passed due apart
  | false =>
      rw [side] at apart
      exact (h.swap.step passed due fun both => apart both.symm).swap

theorem Scene.step_time (scene : Scene α) (m : Move) :
    (scene.step m).world.time = (scene.world.wait m.time).time := by
  unfold Scene.step
  split
  · exact Side.step_time _ _
  · exact Side.step_time _ _

/-- In any schedule up to the deadline in which the two sides stay apart they exclude each
other, and once both have been done, what is so is what is so with both. -/
theorem contest_throughout (E : Effects w (w.Until deadline) first second)
    {scene : Scene (Except Fault α)} {schedule : List Move}
    (begun : scene = w.contest launch launch' first second x) (fenced : w.Fenced deadline x)
    (due : x.time.Due deadline) (before : E.so false false x)
    (moves : ∀ m ∈ schedule, m.time.Timely ∧ m.time ≤ deadline)
    (apart : scene.Throughout w.Apart schedule) :
    scene.Throughout w.Excludes schedule ∧
      ((scene.play schedule).left.succeeds = true → (scene.play schedule).right.succeeds = true →
        E.so true true (scene.play schedule).world) := by
  have start : Regulated E launch launch' scene.world scene.left scene.right := by
    subst begun
    exact .quiet ⟨fenced, some false, some false, .waiting, .waiting, .of_some before⟩
  have due : scene.world.time.Due deadline := begun ▸ due
  have result := apart.invariant (Q := w.Excludes) (I := fun scene =>
    Regulated E launch launch' scene.world scene.left scene.right ∧ scene.world.time.Due deadline)
    moves ?_ ?_ ⟨start, due⟩
  · exact ⟨result.1, result.2.1.of_succeeds⟩
  · rintro scene m ⟨timely, early⟩ ⟨regulated, due⟩ apart
    have due := World.wait_due due timely early
    exact ⟨regulated.move due apart, Scene.step_time scene m ▸ due⟩
  · rintro scene ⟨regulated, _⟩
    exact regulated.not_holding

end Workspace
end AssessmentPlans
