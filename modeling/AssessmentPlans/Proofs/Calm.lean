import AssessmentPlans.Proofs.Execution
import AssessmentPlans.Proofs.Instant.Order
import AssessmentPlans.Proofs.Sight
import AssessmentPlans.Proofs.Workspace.Lock

/-! Executions while nobody else does anything to the files. Before each action any time may
pass; the clock never goes back, and shows times that can be written as dates. -/
namespace AssessmentPlans

namespace Knowledge

/-- No answer is an error. -/
def Sure (R : Knowledge) : Prop := ∀ action answer, R action answer → success action answer

end Knowledge

/-- The world answers, whatever its clock shows; something may be known of the answer. -/
def Undisturbed (R : Knowledge) : Surroundings World := fun w action answer x =>
  ∃ v, w.Stays v ∧ v.perform action = (answer, x) ∧ R action answer

namespace Undisturbed

variable {R : Knowledge} {w x : World} {action : Action} {answer : action.Answer} {p : Path}

theorem stays (h : Undisturbed R w action answer x) (passive : action.Passive) : w.Stays x := by
  obtain ⟨v, same, run, _⟩ := h
  have left := World.Stays.of_passive passive v
  rw [run] at left
  exact same.trans left

theorem written {s : String} (h : Undisturbed R w (.write p s) (.ok ()) x) : x.Sees p s := by
  obtain ⟨v, _, run, _⟩ := h
  rcases v.perform_write p s with ⟨after, run', seen⟩ | ⟨e, run'⟩
  · cases run.symm.trans run'
    exact seen
  · cases run.symm.trans run'

/-- Nothing is left to be written. -/
theorem synced {answer : Except FileError Unit} (h : Undisturbed R w (.sync p) answer x) :
    w.Stays x := by
  obtain ⟨v, same, ⟨⟩, _⟩ := h
  exact same

theorem renamed {q : Path} {s : String} (h : Undisturbed R w (.rename p q) (.ok ()) x) (seen : w.Sees p s) :
    x.Sees q s := by
  obtain ⟨v, same, run, _⟩ := h
  rcases v.perform_rename (same.sees seen) q with ⟨after, run', moved⟩ | ⟨e, run'⟩
  · cases run.symm.trans run'
    exact moved
  · cases run.symm.trans run'

end Undisturbed

/-- The files stay while time passes. -/
structure World.Passes (w x : World) : Prop where
  files : x.files = w.files
  here : x.here = w.here
  time : w.time ≤ x.time

namespace World.Passes

theorem refl (w : World) : w.Passes w := ⟨rfl, rfl, le_refl _⟩

theorem trans {w x y : World} (h : w.Passes x) (h' : x.Passes y) : w.Passes y :=
  ⟨h'.files.trans h.files, h'.here.trans h.here, le_trans h.time h'.time⟩

theorem stays {w x : World} (h : w.Passes x) : w.Stays x := ⟨h.files, h.here⟩

theorem sees {w x : World} {p : Path} {s : String} (h : w.Passes x) (seen : w.Sees p s) : x.Sees p s :=
  h.stays.sees seen

end World.Passes

/-- Time passes, then the world answers; something may be known of the answer. -/
def Calm (R : Knowledge) : Surroundings World := fun w action answer x =>
  ∃ v, w.Passes v ∧ v.time.Timely ∧ v.perform action = (answer, x) ∧ R action answer

theorem World.withFiles_error {w x : World} {result : Except FileError Files} {e : FileError}
    (h : w.withFiles result = (.error e, x)) : x = w := by
  rcases w.withFiles_cases result with ⟨g, _, run⟩ | ⟨e', run⟩
  · cases h.symm.trans run
  · cases h.symm.trans run
    rfl

theorem Files.remove_isPresent {f g : Files} {here : Trail} {p : Path}
    (h : f.remove here p = .ok g) : g.isPresent here p = false := by
  obtain ⟨t, leads, ⟨e, entry, notDirectory⟩, rfl⟩ := remove_eq_ok.mp h
  have other : f.entry? t ≠ some .directory := by
    rw [entry]
    exact fun same => notDirectory (Option.some.inj same)
  have still := locate_mono (erase_keepsDirectories other) leads
  have gone : Files.look here p (f.erase t) = .error .missing := by
    unfold look
    rw [still]
    simp only [bind, Except.bind, entry?_erase_self (ne_root other)]
    rfl
  rw [isPresent, gone]

namespace Calm

variable {R : Knowledge} {w x y : World} {action : Action} {answer : action.Answer}

theorem undisturbed (h : Calm R w action answer x) : Undisturbed R w action answer x := by
  obtain ⟨v, passed, _, answered⟩ := h
  exact ⟨v, passed.stays, answered⟩

theorem refines : (Calm R).Refines (Undisturbed R) := fun _ _ _ _ => undisturbed

theorem known (h : Calm R w action answer x) : R action answer := by
  obtain ⟨_, _, _, _, known⟩ := h
  exact known

theorem here (h : Calm R w action answer x) : x.here = w.here := by
  obtain ⟨v, passed, _, run, _⟩ := h
  have same := v.perform_here action
  rw [run] at same
  exact same.trans passed.here

theorem time (h : Calm R w action answer x) : w.time ≤ x.time := by
  obtain ⟨v, passed, _, run, _⟩ := h
  have same := v.perform_time action
  rw [run] at same
  exact le_of_le_of_eq passed.time same.symm

theorem passes (h : Calm R w action answer x) (passive : action.Passive) : w.Passes x := by
  refine ⟨?_, h.here, h.time⟩
  obtain ⟨v, passed, _, run, _⟩ := h
  have same := World.perform_files passive v
  rw [run] at same
  exact same.trans passed.files

theorem keeps {inv : World → Prop} (h : Calm R w action answer x) (kept : action.Keeps inv)
    (lasting : ∀ x y, x.Passes y → inv x → inv y) (met : inv w) : inv x := by
  obtain ⟨v, passed, _, run, _⟩ := h
  have after := kept v (lasting w v passed met)
  rw [run] at after
  exact after

/-- What is looked up at a path is what the world has there. -/
theorem shown {p : Path} (h : Calm R w action answer x) (passive : action.Passive)
    (own : action.Concerns p) : answer = (w.perform action).1 := by
  obtain ⟨v, passed, _, run, _⟩ := h
  have same := passed.stays.perform passive own
  rw [run] at same
  exact same

theorem isPresent {p : Path} {answer : Bool} (h : Calm R w (.isPresent p) answer x) :
    answer = w.files.isPresent w.here p :=
  h.shown trivial rfl

theorem readText {p : Path} {answer : Except FileError String}
    (h : Calm R w (.readText p) answer x) : answer = w.files.readText w.here p :=
  h.shown trivial rfl

theorem now {t : Instant} (h : Calm R w .now t x) : x.time = t ∧ t.Timely := by
  obtain ⟨v, _, timely, ⟨⟩, _⟩ := h
  exact ⟨rfl, timely⟩

theorem write {p : Path} {s : String} (h : Calm R w (.write p s) (.ok ()) x) : x.Sees p s :=
  h.undisturbed.written

/-- A file that is there can be written. -/
theorem write_succeeds {p : Path} {s text : String} {answer : Except FileError Unit}
    (h : Calm R w (.write p text) answer x) (seen : w.Sees p s) : answer = .ok () := by
  obtain ⟨v, passed, _, run, _⟩ := h
  obtain ⟨t, leads, file⟩ := Files.look_eq_ok.mp (passed.sees seen)
  have other : v.files.entry? t ≠ some .directory := by
    rw [file]
    exact nofun
  have put : v.files.write v.here p text = .ok (v.files.put t (.text text)) :=
    Files.setText_eq_ok.mpr ⟨t, leads, other, rfl⟩
  rw [World.perform, put] at run
  exact (congrArg Prod.fst run).symm

theorem created {p : Path} (h : Calm R w (.create p) (.ok ()) x) : x.Sees p "" := by
  obtain ⟨v, _, _, run, _⟩ := h
  rcases v.withFiles_cases _ with ⟨g, made, run'⟩ | ⟨e, run'⟩
  · cases run.symm.trans run'
    exact Files.setText_look made
  · cases run.symm.trans run'

/-- Nothing is left to be written. -/
theorem synced {p : Path} {answer : Except FileError Unit} (h : Calm R w (.sync p) answer x) :
    answer = .ok () ∧ w.Passes x := by
  obtain ⟨v, passed, _, ⟨⟩, _⟩ := h
  exact ⟨rfl, passed⟩

theorem renamed {p q : Path} {s : String} (h : Calm R w (.rename p q) (.ok ()) x) (seen : w.Sees p s) :
    x.Sees q s :=
  h.undisturbed.renamed seen

theorem unsure {answer : Except FileError Unit} (known : R.Sure → answer = .ok ()) :
    ∀ e, answer = .error e → ¬R.Sure := by
  intro e failed sure
  cases (known sure).symm.trans failed

theorem create_failed {p : Path} {e : FileError} (h : Calm R w (.create p) (.error e) x) :
    w.Passes x := by
  obtain ⟨v, passed, _, run, _⟩ := h
  cases World.withFiles_error run
  exact passed

theorem write_failed {p : Path} {s : String} {e : FileError} (h : Calm R w (.write p s) (.error e) x) :
    w.Passes x := by
  obtain ⟨v, passed, _, run, _⟩ := h
  cases World.withFiles_error run
  exact passed

theorem remove_failed {p : Path} {e : FileError} (h : Calm R w (.remove p) (.error e) x) :
    w.Passes x := by
  obtain ⟨v, passed, _, run, _⟩ := h
  cases World.withFiles_error run
  exact passed

theorem removed {p : Path} (h : Calm R w (.remove p) (.ok ()) x) :
    x.files.isPresent x.here p = false := by
  obtain ⟨v, _, _, run, _⟩ := h
  rcases v.withFiles_cases _ with ⟨g, gone, run'⟩ | ⟨e, run'⟩
  · cases run.symm.trans run'
    exact Files.remove_isPresent gone
  · cases run.symm.trans run'

/-- A file that is there can be removed. -/
theorem remove_succeeds {p : Path} {s : String} {answer : Except FileError Unit}
    (h : Calm R w (.remove p) answer x) (seen : w.Sees p s) : answer = .ok () := by
  obtain ⟨v, passed, _, run, _⟩ := h
  obtain ⟨t, leads, file⟩ := Files.look_eq_ok.mp (passed.sees seen)
  have gone : v.files.remove v.here p = .ok (v.files.erase t) :=
    Files.remove_eq_ok.mpr ⟨t, leads, ⟨.text s, file, nofun⟩, rfl⟩
  rw [World.perform, gone] at run
  exact (congrArg Prod.fst run).symm

end Calm

theorem Job.Within.calm {α : Type} {job : Job α} {allowed : Action → Prop} {inv : World → Prop}
    {R : Knowledge} {w : World} (h : Job.Within allowed job)
    (kept : ∀ action, allowed action → action.Keeps inv)
    (lasting : ∀ x y, x.Passes y → inv x → inv y) (met : inv w) :
    job.Always (Calm R) inv (fun _ => inv) (fun _ => inv) w :=
  h.always (fun _ action _ _ allowed done => done.keeps (kept action allowed) lasting) met

/-- What depends on the files alone comes out the same however long it takes. -/
theorem Program.Within.undisturbed {α : Type} {p : Program α} {R : Knowledge} {w x : World}
    (h : p.Within Action.Timeless) (stays : w.Stays x) :
    p.Always (Undisturbed R) w.Stays (fun a y => a = (p.run w).1 ∧ w.Stays y) x := by
  induction p generalizing w x with
  | done a => exact ⟨rfl, stays⟩
  | act action next ih =>
      obtain ⟨timeless, rest⟩ := h
      refine ⟨stays, ?_⟩
      rintro answer y ⟨v, same, run, _⟩
      have answered := (stays.trans same).answer timeless
      have left := World.Stays.of_passive timeless.passive v
      rw [run] at answered left
      cases answered
      have first := World.Stays.of_passive timeless.passive w
      have after := first.symm.trans ((stays.trans same).trans left)
      exact (ih _ (rest _) after).mono (fun _ h => first.trans h) fun a y h => ⟨h.1, first.trans h.2⟩

theorem Job.Within.undisturbed {α : Type} {job : Job α} {R : Knowledge} {w x : World}
    (h : Job.Within Action.Timeless job) (stays : w.Stays x) :
    job.Always (Undisturbed R) w.Stays (fun a y => (w.run job).1 = .ok a ∧ w.Stays y)
      (fun fault y => (w.run job).1 = .error fault ∧ w.Stays y) x := by
  refine (Program.Within.undisturbed h stays).mono (fun _ h => h) fun result y met => ?_
  cases result with
  | ok a => exact ⟨met.1.symm, met.2⟩
  | error fault => exact ⟨met.1.symm, met.2⟩

/-- What leaves all files as they are lets time pass, and no more. -/
theorem Job.Within.passing {α : Type} {job : Job α} {R : Knowledge} {w : World}
    (h : Job.Within Action.Passive job) :
    job.Always (Calm R) w.Passes (fun _ => w.Passes) (fun _ => w.Passes) w :=
  h.always (fun _ _ _ _ passive done passed => passed.trans (done.passes passive)) (.refl w)

/-- A job that depends on the files alone ends as it does where they are looked at at once. -/
theorem Job.Within.passing_run {α : Type} {job : Job α} {R : Knowledge} {w : World} {a : α}
    (h : Job.Within Action.Timeless job) (run : (w.run job).1 = .ok a) :
    job.Always (Calm R) (fun _ => True) (fun b x => b = a ∧ w.Passes x) (fun _ _ => False) w := by
  have same : job.Always (Calm R) w.Stays _ _ w := (h.undisturbed (.refl w)).refine Calm.refines
  have passing : job.Always (Calm R) w.Passes _ _ w := (h.mono fun _ => Action.Timeless.passive).passing
  refine (same.and passing).mono (fun _ _ => trivial) ?_ ?_
  · rintro b y ⟨⟨result, _⟩, passed⟩
    cases run.symm.trans result
    exact ⟨rfl, passed⟩
  · rintro fault y ⟨⟨result, _⟩, _⟩
    cases run.symm.trans result

theorem Program.run_time {α : Type} (p : Program α) (w : World) : (p.run w).2.time = w.time := by
  induction p generalizing w with
  | done a => rfl
  | act action next ih => exact (ih _ _).trans (World.perform_time w action)

theorem World.run_time {α : Type} (w : World) (job : Job α) : (w.run job).2.time = w.time :=
  Program.run_time _ w

/-- A run in a world that does not change meanwhile is a calm one. -/
theorem Program.Leads.of_along {α : Type} {R : Knowledge} {p : Program α} {w : World}
    (timely : w.time.Timely) (known : p.Along R w) :
    p.Leads (Calm R) w (.done (p.run w).1) (p.run w).2 := by
  induction p generalizing w with
  | done a => exact .here _ _
  | act action next ih =>
      have same := World.perform_time w action
      refine .step ⟨w, .refl w, timely, rfl, known.1⟩ (ih _ ?_ known.2)
      rw [← same] at timely
      exact timely

theorem Program.Leads.of_run {α : Type} {p : Program α} {w : World} (timely : w.time.Timely) :
    p.Leads (Calm .nothing) w (.done (p.run w).1) (p.run w).2 :=
  .of_along timely (p.along_nothing w)

/-- So is one that nobody disturbs, whatever the time is. -/
theorem Program.Leads.undisturbed {α : Type} {R : Knowledge} {p : Program α} {w : World}
    (known : p.Along R w) : p.Leads (Undisturbed R) w (.done (p.run w).1) (p.run w).2 := by
  induction p generalizing w with
  | done a => exact .here _ _
  | act action next ih => exact .step ⟨w, .refl w, rfl, known.1⟩ (ih _ known.2)

theorem Job.Ends.undisturbed {α : Type} {R : Knowledge} {job : Job α} {w : World} (known : job.Along R w) :
    job.Ends (Undisturbed R) w (w.run job).1 (w.run job).2 :=
  Program.Leads.undisturbed known

theorem Job.Ends.of_along {α : Type} {R : Knowledge} {job : Job α} {w : World} (timely : w.time.Timely)
    (known : job.Along R w) : job.Ends (Calm R) w (w.run job).1 (w.run job).2 :=
  Program.Leads.of_along timely known

theorem Program.Leads.later {α : Type} {R : Knowledge} {action : Action}
    {next : action.Answer → Program α} {a : α} {w x y : World} (passed : w.Passes x)
    (run : (Program.act action next).Leads (Calm R) x (.done a) y) :
    (Program.act action next).Leads (Calm R) w (.done a) y := by
  cases run with
  | step answered rest =>
      obtain ⟨v, later, timely, run, known⟩ := answered
      exact .step ⟨v, passed.trans later, timely, run, known⟩ rest

end AssessmentPlans
