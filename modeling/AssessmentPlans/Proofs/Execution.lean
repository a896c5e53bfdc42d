import AssessmentPlans.Proofs.Conduct

/-! Executions step by step, in surroundings that have a say in how actions are answered:
a clock that goes on, actions that fail, somebody else who changes the files. What holds
between any two actions is found along the program, one rule for each way to build one. -/
namespace AssessmentPlans

variable {σ α β γ : Type}

/-- From which states an action is answered how, and which states it leaves. -/
def Surroundings (σ : Type) : Type := σ → (action : Action) → action.Answer → σ → Prop

/-- Nothing happens that could not happen there. -/
def Surroundings.Refines (env env' : Surroundings σ) : Prop :=
  ∀ s action answer t, env s action answer t → env' s action answer t

/-- A run, or a part of one: what is left of the program, and the state by then. -/
inductive Program.Leads (env : Surroundings σ) : Program α → σ → Program α → σ → Prop where
  | here (p : Program α) (s : σ) : Leads env p s p s
  | step {action : Action} {next : action.Answer → Program α} {answer : action.Answer}
    {q : Program α} {s t u : σ} (answered : env s action answer t)
    (rest : Leads env (next answer) t q u) : Leads env (.act action next) s q u

/-- Whatever is answered, `inv` holds before each action and `post` in the end. -/
def Program.Always (env : Surroundings σ) (inv : σ → Prop) (post : α → σ → Prop) :
    Program α → σ → Prop
  | .done a, s => post a s
  | .act action next, s =>
    inv s ∧ ∀ answer t, env s action answer t → (next answer).Always env inv post t

namespace Program

variable {env env' : Surroundings σ} {p q q' : Program α} {f : α → Program β} {s t u : σ}
  {inv inv' : σ → Prop} {post post' : α → σ → Prop}

theorem Leads.trans (first : p.Leads env s q t) (rest : q.Leads env t q' u) :
    p.Leads env s q' u := by
  induction first with
  | here p s => exact rest
  | step answered _ ih => exact .step answered (ih rest)

theorem Leads.bind (h : p.Leads env s q t) (f : α → Program β) :
    (p.bind f).Leads env s (q.bind f) t := by
  induction h with
  | here p s => exact .here _ _
  | step answered _ ih => exact .step answered ih

theorem Leads.refine (h : p.Leads env s q t) (finer : env.Refines env') : p.Leads env' s q t := by
  induction h with
  | here p s => exact .here p s
  | step answered _ ih => exact .step (finer _ _ _ _ answered) ih

/-- A run of one program after another comes to the end of the first. -/
theorem Leads.of_bind {b : β} (h : (p.bind f).Leads env s (.done b) t) :
    ∃ a u, p.Leads env s (.done a) u ∧ (f a).Leads env u (.done b) t := by
  induction p generalizing s with
  | done a => exact ⟨a, s, .here _ _, h⟩
  | act action next ih =>
      cases h with
      | step answered rest =>
          obtain ⟨a, u, first, second⟩ := ih _ rest
          exact ⟨a, u, .step answered first, second⟩

namespace Always

theorem leads (h : p.Always env inv post s) (led : p.Leads env s q t) :
    q.Always env inv post t := by
  induction led with
  | here p s => exact h
  | step answered _ ih => exact ih (h.2 _ _ answered)

theorem point (h : p.Always env inv post s) (led : p.Leads env s q t) :
    inv t ∨ ∃ a, q = .done a ∧ post a t := by
  have rest := h.leads led
  cases q with
  | done a => exact .inr ⟨a, rfl, rest⟩
  | act action next => exact .inl rest.1

theorem bind {post : β → σ → Prop} (mid : α → σ → Prop) (first : p.Always env inv mid s)
    (next : ∀ a t, mid a t → (f a).Always env inv post t) : (p.bind f).Always env inv post s := by
  induction p generalizing s with
  | done a => exact next a s first
  | act action rest ih => exact ⟨first.1, fun answer t answered => ih answer (first.2 answer t answered)⟩

theorem mono (h : p.Always env inv post s) (weaker : ∀ s, inv s → inv' s)
    (after : ∀ a s, post a s → post' a s) : p.Always env inv' post' s := by
  induction p generalizing s with
  | done a => exact after a s h
  | act action next ih =>
      exact ⟨weaker s h.1, fun answer t answered => ih answer (h.2 answer t answered)⟩

theorem refine (h : p.Always env' inv post s) (finer : env.Refines env') : p.Always env inv post s := by
  induction p generalizing s with
  | done a => exact h
  | act action next ih =>
      exact ⟨h.1, fun answer t answered => ih answer (h.2 answer t (finer s action answer t answered))⟩

theorem of_forall (p : Program α) (s : σ) (before : ∀ s, inv s) (ends : ∀ a s, post a s) :
    p.Always env inv post s := by
  induction p generalizing s with
  | done a => exact ends a s
  | act action next ih => exact ⟨before s, fun answer t _ => ih answer t⟩

theorem with_leads (h : p.Always env inv post s) {r : Program α} (led : r.Leads env u p s) :
    p.Always env inv (fun a t => post a t ∧ r.Leads env u (.done a) t) s := by
  induction p generalizing s with
  | done a => exact ⟨h, led⟩
  | act action next ih =>
      exact ⟨h.1, fun answer t answered =>
        ih answer (h.2 answer t answered) (led.trans (.step answered (.here _ _)))⟩

theorem and (h : p.Always env inv post s) (h' : p.Always env inv' post' s) :
    p.Always env (fun s => inv s ∧ inv' s) (fun a s => post a s ∧ post' a s) s := by
  induction p generalizing s with
  | done a => exact ⟨h, h'⟩
  | act action next ih =>
      exact ⟨⟨h.1, h'.1⟩, fun answer t answered =>
        ih answer (h.2 answer t answered) (h'.2 answer t answered)⟩

end Always

theorem Within.always {allowed : Action → Prop} (h : p.Within allowed)
    (kept : ∀ s action answer t, allowed action → env s action answer t → inv s → inv t)
    (hs : inv s) : p.Always env inv (fun _ => inv) s := by
  induction p generalizing s with
  | done a => exact hs
  | act action next ih =>
      exact ⟨hs, fun answer t answered => ih answer (h.2 answer) (kept s action answer t h.1 answered hs)⟩

end Program

namespace Job

variable {env env' : Surroundings σ} {job : Job α} {s t : σ} {inv inv' : σ → Prop}
  {post post' : α → σ → Prop} {fail fail' : Fault → σ → Prop}

def Ends (env : Surroundings σ) (job : Job α) (s : σ) (result : Except Fault α) (t : σ) : Prop :=
  Program.Leads env (ExceptT.run job) s (.done result) t

theorem Ends.followed {f : α → Job β} {a : α} {u : σ} {result : Except Fault β}
    (first : job.Ends env s (.ok a) t)
    (rest : (f a).Ends env t result u) : (job >>= f).Ends env s result u :=
  (Program.Leads.bind first _).trans rest

/-- The run of a job comes to a part, and ends at once with the fault of that part. -/
def FailsIn (env : Surroundings σ) (job : Job α) (s : σ) (part : Job β) (fault : Fault) (t : σ) : Prop :=
  ∃ (rest : Except Fault β → Program (Except Fault α)) (u : σ),
    Program.Leads env (ExceptT.run job) s (Program.bind (ExceptT.run part) rest) u ∧
      part.Ends env u (.error fault) t ∧ rest (.error fault) = .done (.error fault)

namespace FailsIn

variable {part : Job β} {f : α → Job γ} {fault : Fault} {u : σ}

theorem self (h : job.Ends env s (.error fault) t) : job.FailsIn env s job fault t := by
  refine ⟨.done, s, ?_, h, rfl⟩
  rw [Program.bind_done]
  exact .here _ _

theorem first (h : job.FailsIn env s part fault t) (f : α → Job γ) :
    (job >>= f).FailsIn env s part fault t := by
  obtain ⟨rest, u, led, ended, last⟩ := h
  refine ⟨fun r => (rest r).bind (ExceptT.bindCont f), u, ?_, ended, ?_⟩
  · rw [← Program.bind_assoc]
    exact led.bind (ExceptT.bindCont f)
  · dsimp only
    rw [last]
    rfl

theorem after {a : α} (h : (f a).FailsIn env u part fault t) (first : job.Ends env s (.ok a) u) :
    (job >>= f).FailsIn env s part fault t := by
  obtain ⟨rest, v, led, ended, last⟩ := h
  exact ⟨rest, v, (first.bind _).trans led, ended, last⟩

end FailsIn

/-- Whatever is answered, `inv` holds before each action, `post` in the end, and `fail` in the
end of a job that fails. -/
def Always (env : Surroundings σ) (inv : σ → Prop) (job : Job α) (post : α → σ → Prop)
    (fail : Fault → σ → Prop) (s : σ) : Prop :=
  Program.Always env inv (fun result t => match result with
    | .ok a => post a t
    | .error fault => fail fault t) (ExceptT.run job) s

namespace Always

theorem ends_ok {a : α} (h : Always env inv job post fail s) (run : job.Ends env s (.ok a) t) :
    post a t :=
  Program.Always.leads h run

theorem ends_error {fault : Fault} (h : Always env inv job post fail s)
    (run : job.Ends env s (.error fault) t) : fail fault t :=
  Program.Always.leads h run

theorem mono (h : Always env inv job post fail s) (weaker : ∀ s, inv s → inv' s)
    (after : ∀ a s, post a s → post' a s) (failed : ∀ fault s, fail fault s → fail' fault s) :
    Always env inv' job post' fail' s := by
  refine Program.Always.mono h weaker fun result t met => ?_
  cases result with
  | ok a => exact after a t met
  | error fault => exact failed fault t met

theorem refine (h : Always env' inv job post fail s) (finer : env.Refines env') :
    Always env inv job post fail s :=
  Program.Always.refine h finer

theorem and (h : Always env inv job post fail s) (h' : Always env inv' job post' fail' s) :
    Always env (fun s => inv s ∧ inv' s) job (fun a s => post a s ∧ post' a s)
      (fun fault s => fail fault s ∧ fail' fault s) s := by
  refine (Program.Always.and h h').mono (fun _ h => h) fun result t met => ?_
  cases result with
  | ok a => exact met
  | error fault => exact met

theorem with_ends (h : Always env inv job post fail s) :
    Always env inv job (fun a t => post a t ∧ job.Ends env s (.ok a) t)
      (fun fault t => fail fault t ∧ job.Ends env s (.error fault) t) s := by
  refine (Program.Always.with_leads h (.here _ _)).mono (fun _ h => h) fun result t met => ?_
  cases result with
  | ok a => exact met
  | error fault => exact met

/-- Of every run there is nothing to be said. -/
theorem unconditional (job : Job α) (s : σ) :
    Always env (fun _ => True) job (fun _ _ => True) (fun _ _ => True) s := by
  refine Program.Always.of_forall _ s (fun _ => trivial) fun result t => ?_
  cases result with
  | ok a => trivial
  | error fault => trivial

theorem pure {a : α} (h : post a s) : Always env inv (Pure.pure a) post fail s := h

theorem throw {fault : Fault} (h : fail fault s) :
    Always env inv (MonadExcept.throw fault : Job α) post fail s := h

theorem bind {f : α → Job β} {post : β → σ → Prop} (mid : α → σ → Prop)
    (first : Always env inv job mid fail s)
    (next : ∀ a t, mid a t → Always env inv (f a) post fail t) :
    Always env inv (job >>= f) post fail s := by
  refine Program.Always.bind _ first ?_
  intro result t met
  cases result with
  | ok a => exact next a t met
  | error fault => exact met

theorem perform {action : Action} {post : action.Answer → σ → Prop} (now : inv s)
    (next : ∀ answer t, env s action answer t → post answer t) :
    Always env inv (Job.perform action) post fail s :=
  ⟨now, next⟩

theorem orFail {fault : FileError → Fault} {answer : Except FileError α}
    (ok : ∀ a, answer = .ok a → post a s) (error : ∀ e, answer = .error e → fail (fault e) s) :
    Always env inv (Job.orFail fault answer) post fail s := by
  cases answer with
  | ok a => exact pure (ok a rfl)
  | error e => exact throw (error e rfl)

theorem perform_bind {action : Action} {f : action.Answer → Job α} (now : inv s)
    (next : ∀ answer t, env s action answer t → Always env inv (f answer) post fail t) :
    Always env inv (Job.perform action >>= f) post fail s :=
  ⟨now, next⟩

theorem orFail_bind {fault : FileError → Fault} {answer : Except FileError β} {f : β → Job α}
    (ok : ∀ a, answer = .ok a → Always env inv (f a) post fail s)
    (error : ∀ e, answer = .error e → fail (fault e) s) :
    Always env inv (Job.orFail fault answer >>= f) post fail s := by
  cases answer with
  | ok a => exact ok a rfl
  | error e => exact error e rfl

theorem attempt (h : Always env inv job post fail s) :
    Always env inv (Job.attempt job) (fun result t => match result with
      | .ok a => post a t
      | .error fault => fail fault t) fail' s :=
  Program.Always.bind _ h fun _ _ met => met

end Always

theorem Within.always {allowed : Action → Prop} (h : Within allowed job)
    (kept : ∀ s action answer t, allowed action → env s action answer t → inv s → inv t)
    (hs : inv s) : Always env inv job (fun _ => inv) (fun _ => inv) s := by
  refine (Program.Within.always h kept hs).mono (fun _ h => h) fun result t met => ?_
  cases result with
  | ok a => exact met
  | error fault => exact met

end Job

/-- The world answers as it is. -/
def Performed : Surroundings World := fun w action answer x => w.perform action = (answer, x)

theorem Program.Leads.performed (p : Program α) (w : World) :
    p.Leads Performed w (.done (p.run w).1) (p.run w).2 := by
  induction p generalizing w with
  | done a => exact .here _ _
  | act action next ih => exact .step rfl (ih _ _)

theorem Job.Ends.performed (job : Job α) (w : World) :
    job.Ends Performed w (w.run job).1 (w.run job).2 :=
  Program.Leads.performed _ w

end AssessmentPlans
