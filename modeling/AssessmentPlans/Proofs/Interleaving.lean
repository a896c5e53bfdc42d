import AssessmentPlans.Proofs.Calm

/-! Two programs that share a world. A schedule says which of them does its next action, and
when; each keeps a log of what it has done. -/
namespace AssessmentPlans

/-- An action that has been done, and the answer to it. -/
structure Deed where
  action : Action
  answer : action.Answer

namespace Deed

/-- Nothing was found at the path. -/
def foundNothing (p : Path) : Deed → Bool
  | ⟨.isPresent q, answer⟩ => q = p && !answer
  | _ => false

/-- A file was made at the path, or was not made after all. -/
def creates (p : Path) : Deed → Bool
  | ⟨.create q, _⟩ => q = p
  | _ => false

/-- A file was made at the path. -/
def made (p : Path) : Deed → Bool
  | ⟨.create q, .ok ()⟩ => q = p
  | _ => false

/-- What was written at the path is safe. -/
def secured (p : Path) : Deed → Bool
  | ⟨.sync q, .ok ()⟩ => q = p
  | _ => false

/-- What has been done stays done. -/
theorem any_cons {mark : Deed → Bool} {log : List Deed} (d : Deed) (h : log.any mark = true) :
    (d :: log).any mark = true := by
  rw [List.any_cons, h, Bool.or_true]

theorem any_head {mark : Deed → Bool} {d : Deed} (h : mark d = true) (log : List Deed) :
    (d :: log).any mark = true := by
  rw [List.any_cons, h, Bool.true_or]

theorem creates_eq_false {p : Path} {action : Action} {answer : action.Answer}
    (harmless : action.Harmless) : creates p ⟨action, answer⟩ = false := by
  rcases harmless with passive | ⟨q, rfl⟩
  · cases action with
    | create q => exact passive.elim
    | _ => rfl
  · rfl

theorem creates_of_made {p : Path} {d : Deed} (h : d.made p = true) : d.creates p = true := by
  unfold made at h
  split at h
  · exact h
  · cases h

theorem made_eq_false {p : Path} {action : Action} {answer : action.Answer}
    (harmless : action.Harmless) : made p ⟨action, answer⟩ = false := by
  refine Bool.eq_false_iff.mpr fun made => ?_
  cases (creates_eq_false harmless).symm.trans (creates_of_made made)

end Deed

/-- A program on its way: what is left of it, and what it has done, last first. -/
structure Side (α : Type) where
  program : Program α
  log : List Deed

namespace Side

variable {α : Type}

def start (p : Program α) : Side α := ⟨p, []⟩

def isRunning (s : Side α) : Bool :=
  match s.program with
  | .done _ => false
  | .act _ _ => true

def succeeds (s : Side (Except Fault α)) : Bool :=
  match s.program with
  | .done (.ok _) => true
  | _ => false

def step (w : World) (s : Side α) : World × Side α :=
  match s.program with
  | .done _ => (w, s)
  | .act action next =>
    let (answer, w) := w.perform action
    (w, ⟨next answer, ⟨action, answer⟩ :: s.log⟩)

theorem step_done {s : Side α} {a : α} (ended : s.program = .done a) (w : World) : s.step w = (w, s) := by
  rw [step, ended]

theorem step_act {s : Side α} {action : Action} {next : action.Answer → Program α}
    (left : s.program = .act action next) (w : World) :
    s.step w = ((w.perform action).2,
      ⟨next (w.perform action).1, ⟨action, (w.perform action).1⟩ :: s.log⟩) := by
  rw [step, left]

theorem succeeds_iff {s : Side (Except Fault α)} :
    s.succeeds = true ↔ ∃ a, s.program = .done (.ok a) := by
  unfold succeeds
  split
  · next a ended => exact iff_of_true rfl ⟨a, ended⟩
  · next other => exact iff_of_false Bool.false_ne_true fun ⟨a, ended⟩ => other a ended

theorem isRunning_eq_false {s : Side α} {a : α} (ended : s.program = .done a) : s.isRunning = false := by
  rw [isRunning, ended]

end Side

/-- The clock goes on to a time, unless it shows a later one. -/
def World.wait (t : Instant) (w : World) : World := if w.time < t then { w with time := t } else w

theorem World.passes_wait (w : World) (t : Instant) : w.Passes (w.wait t) := by
  unfold wait
  split
  · next later => exact ⟨rfl, rfl, le_of_lt later⟩
  · exact .refl w

structure Scene (α : Type) where
  world : World
  left : Side α
  right : Side α

/-- Whether it is the left program that goes on, and the time by then. -/
structure Move where
  left : Bool
  time : Instant

namespace Scene

variable {α : Type} {P Q I : Scene α → Prop} {allowed : Move → Prop}

def step (scene : Scene α) (m : Move) : Scene α :=
  let w := scene.world.wait m.time
  if m.left then
    let (w, left) := scene.left.step w
    { scene with world := w, left }
  else
    let (w, right) := scene.right.step w
    { scene with world := w, right }

def play (scene : Scene α) (schedule : List Move) : Scene α := schedule.foldl step scene

/-- What holds at each point of a schedule. -/
def Throughout (P : Scene α → Prop) : Scene α → List Move → Prop
  | scene, [] => P scene
  | scene, m :: schedule => P scene ∧ (scene.step m).Throughout P schedule

instance decidableThroughout [decidable : DecidablePred P] :
    (scene : Scene α) → (schedule : List Move) → Decidable (scene.Throughout P schedule)
  | scene, [] => decidable scene
  | scene, m :: schedule =>
    @instDecidableAnd _ _ (decidable scene) (decidableThroughout (scene.step m) schedule)

theorem Throughout.now {scene : Scene α} {schedule : List Move} (h : scene.Throughout P schedule) :
    P scene := by
  cases schedule with
  | nil => exact h
  | cons m schedule => exact h.1

/-- An invariant that each move keeps holds throughout and in the end. -/
theorem Throughout.invariant {scene : Scene α} {schedule : List Move}
    (h : scene.Throughout P schedule) (moves : ∀ m ∈ schedule, allowed m)
    (step : ∀ scene m, allowed m → I scene → P (scene.step m) → I (scene.step m))
    (implies : ∀ scene, I scene → Q scene) (good : I scene) :
    scene.Throughout Q schedule ∧ I (scene.play schedule) := by
  induction schedule generalizing scene with
  | nil => exact ⟨implies scene good, good⟩
  | cons m schedule ih =>
      obtain ⟨first, rest⟩ := List.forall_mem_cons.mp moves
      obtain ⟨after, final⟩ := ih h.2 rest (step scene m first good h.2.now)
      exact ⟨⟨implies scene good, after⟩, final⟩

end Scene

/-! Executions that are recorded. -/

/-- What is done is noted, last first. -/
def Recorded {σ : Type} (env : Surroundings σ) : Surroundings (σ × List Deed) :=
  fun s action answer t => env s.1 action answer t.1 ∧ t.2 = ⟨action, answer⟩ :: s.2

section Recorded

variable {σ α : Type} {env : Surroundings σ} {inv : σ → Prop} {s : σ × List Deed}

theorem Program.Leads.recorded {p q : Program α} {s t : σ} (h : p.Leads env s q t) (log : List Deed) :
    ∃ log', p.Leads (Recorded env) (s, log) q (t, log') := by
  induction h generalizing log with
  | here p s => exact ⟨log, .here _ _⟩
  | @step action _ answer _ _ t _ answered _ ih =>
      obtain ⟨log', rest⟩ := ih (⟨action, answer⟩ :: log)
      exact ⟨log', .step ⟨answered, rfl⟩ rest⟩

theorem Program.Always.recorded {p : Program α} {post : α → σ → Prop}
    (h : p.Always env inv post s.1) :
    p.Always (Recorded env) (fun t => inv t.1) (fun a t => post a t.1) s := by
  induction p generalizing s with
  | done a => exact h
  | act action next ih => exact ⟨h.1, fun answer t answered => ih answer (h.2 answer t.1 answered.1)⟩

theorem Job.Always.recorded {job : Job α} {post : α → σ → Prop} {fail : Fault → σ → Prop}
    (h : job.Always env inv post fail s.1) :
    job.Always (Recorded env) (fun t => inv t.1) (fun a t => post a t.1) (fun fault t => fail fault t.1)
      s := by
  refine (Program.Always.recorded h).mono (fun _ h => h) fun result t met => ?_
  cases result with
  | ok a => exact met
  | error fault => exact met

/-- What can be told from the log remains so. -/
theorem Program.Always.noted {p : Program α} {inv : σ × List Deed → Prop}
    {post : α → σ × List Deed → Prop} {P : List Deed → Prop} (h : p.Always (Recorded env) inv post s)
    (lasts : ∀ d log, P log → P (d :: log)) (met : P s.2) :
    p.Always (Recorded env) (fun t => inv t ∧ P t.2) (fun a t => post a t ∧ P t.2) s := by
  induction p generalizing s with
  | done a => exact ⟨h, met⟩
  | act action next ih =>
      refine ⟨⟨h.1, met⟩, fun answer t answered => ih answer (h.2 answer t answered) ?_⟩
      rw [answered.2]
      exact lasts _ _ met

theorem Job.Always.noted {job : Job α} {inv : σ × List Deed → Prop}
    {post : α → σ × List Deed → Prop} {fail : Fault → σ × List Deed → Prop} {P : List Deed → Prop}
    (h : job.Always (Recorded env) inv post fail s) (lasts : ∀ d log, P log → P (d :: log))
    (met : P s.2) :
    job.Always (Recorded env) (fun t => inv t ∧ P t.2) (fun a t => post a t ∧ P t.2)
      (fun fault t => fail fault t ∧ P t.2) s := by
  refine (Program.Always.noted h lasts met).mono (fun _ h => h) fun result t met => ?_
  cases result with
  | ok a => exact met
  | error fault => exact met

end Recorded

theorem Program.Always.passes {α : Type} {R : Knowledge} {inv : World × List Deed → Prop}
    {post : α → World × List Deed → Prop} {p : Program α} {w x : World} {log : List Deed}
    (h : p.Always (Recorded (Calm R)) inv post (w, log)) (passed : w.Passes x)
    (lasts : inv (w, log) → inv (x, log)) (after : ∀ a, post a (w, log) → post a (x, log)) :
    p.Always (Recorded (Calm R)) inv post (x, log) := by
  cases p with
  | done a => exact after a h
  | act action next =>
      refine ⟨lasts h.1, ?_⟩
      rintro answer t ⟨⟨v, later, done⟩, noted⟩
      exact h.2 answer t ⟨⟨v, passed.trans later, done⟩, noted⟩

end AssessmentPlans
