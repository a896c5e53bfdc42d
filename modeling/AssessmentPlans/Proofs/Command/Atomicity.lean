import AssessmentPlans.Proofs.Command.Success
import AssessmentPlans.Proofs.Disturbance

/-! The plan file is replaced as a whole or not at all, wherever a command is stopped and
whichever of its actions fail, if the file library tells when a draft has not been written. -/
namespace AssessmentPlans

open Job

/-- A path goes on leading where it led, and the file at its end is the one that was there. -/
structure World.Retains (p : Path) (start x : World) : Prop where
  leads : ∀ t, start.files.locate start.here p = .ok t → x.files.locate x.here p = .ok t
  same : ∀ t, x.files.locate x.here p = .ok t → x.files.file? t = start.files.file? t

/-- No plan has been put in place. -/
structure PlansKept (start x : World) : Prop where
  here : x.here = start.here
  directories : start.files.KeepsDirectories x.files
  plans : ∀ t, t.getLast? = some Workspace.planName → x.files.file? t = start.files.file? t

namespace PlansKept

variable {start x y : World} {s : String}

theorem refl (start : World) : PlansKept start start := ⟨rfl, .refl _, fun _ _ => rfl⟩

theorem retains (h : PlansKept start x) (w : Workspace) : World.Retains w.planPath start x where
  leads _ leads := h.here ▸ Files.locate_mono h.directories leads
  same t leads := h.plans t (Files.locate_child Workspace.planName_proper leads)

theorem sees {w : Workspace} (h : PlansKept start x) (seen : start.Sees w.planPath s) :
    x.Sees w.planPath s := by
  obtain ⟨t, leads, file⟩ := Files.look_text.mp seen
  have leads := (h.retains w).leads t leads
  exact Files.look_text.mpr ⟨t, leads, ((h.retains w).same t leads).trans file⟩

theorem stays (h : PlansKept start x) (files : y.files = x.files) (here : y.here = x.here) :
    PlansKept start y where
  here := here.trans h.here
  directories := by
    rw [files]
    exact h.directories
  plans := by
    rw [files]
    exact h.plans

end PlansKept

namespace Workspace

variable {w : Workspace} {start x y : World} {action : Action} {answer : action.Answer} {s : String}
  {library : FileLibrary} {fit : Plan → Prop}

theorem Spares.apart (h : w.Spares action) {f : Files} {here t : Trail}
    (last : t.getLast? = some planName) : ¬f.Strikes here action t := by
  cases h with
  | locks h =>
      cases h with
      | harmless h => exact fun struck => struck.not_harmless h
      | create | write text | sync | remove => exact locate_apart lockName_proper (by decide) last
  | drafts h =>
      cases h with
      | harmless h => exact fun struck => struck.not_harmless h
      | create | write text | sync => exact locate_apart draftName_proper (by decide) last

theorem Spares.keeps_plans (h : w.Spares action) (done : Disturbed x action answer y)
    (kept : PlansKept start x) : PlansKept start y where
  here := done.here.trans kept.here
  directories := kept.directories.trans done.leaves.keepsDirectories
  plans t last := (done.leaves.file? (h.apart last)).trans (kept.plans t last)

theorem Spares.keeps_sight (h : w.Spares action) (done : Disturbed x action answer y)
    (seen : x.Sees w.planPath s) : y.Sees w.planPath s :=
  done.sees (fun _ leads => h.apart (Files.locate_child planName_proper leads)) seen

/-- A plan that is fit stands in the plan file, in its whole text. -/
def Placed (w : Workspace) (fit : Plan → Prop) (x : World) : Prop :=
  ∃ p, fit p ∧ x.Sees w.planPath p.text

theorem plansKept_lasts : w.Lasts library.answers fun s => PlansKept start s.1 :=
  fun _ _ _ _ spares done kept => spares.keeps_plans (library.disturbed _ _ _ _ done).1 kept

theorem placed_lasts : w.Lasts library.answers fun s => library.Secures → w.Placed fit s.1 := by
  intro s action answer t spares done placed secures
  obtain ⟨p, good, seen⟩ := placed secures
  exact ⟨p, good, spares.keeps_sight (library.disturbed _ _ _ _ done).1 seen⟩

/-- Saving a plan puts it in place, or fails before. -/
theorem save_placed {p : Plan} {s : World × List Deed} (good : fit p) (kept : PlansKept start s.1) :
    (w.save p).Always library.answers
      (fun t => PlansKept start t.1 ∨ (library.Secures → w.Placed fit t.1))
      (fun _ t => library.Secures → w.Placed fit t.1) (fun _ t => PlansKept start t.1) s := by
  have lasts : w.Lasts library.answers fun s => PlansKept start s.1 := plansKept_lasts
  have prepared : Within w.Spares w.prepare := prepare_within.mono fun _ => .harmless
  refine Always.bind _ ((prepared.always lasts kept).mono (fun _ => .inl) (fun _ _ h => h) fun _ _ h => h)
    fun _ s kept => ?_
  refine Always.perform_bind (.inl kept) fun answer s created => ?_
  have kept := lasts _ _ _ _ (.drafts .create) created kept
  refine Always.orFail_bind (fun _ _ => ?_) fun _ _ => kept
  refine Always.perform_bind (.inl kept) fun answer t written => ?_
  have kept := lasts _ _ _ _ (.drafts (.write p.text)) written kept
  refine Always.orFail_bind (fun _ ok => ?_) fun _ _ => kept
  cases ok
  refine Always.perform_bind (.inl kept) fun answer u synced => ?_
  have kept := lasts _ _ _ _ (.drafts .sync) synced kept
  refine Always.orFail_bind (fun _ ok => ?_) fun _ _ => kept
  cases ok
  -- The one step that puts the plan in place: up to here it has only been drafted.
  refine Always.perform_bind (.inl kept) fun answer v renamed => ?_
  have renamed := (library.disturbed _ _ _ _ renamed).1
  refine Always.orFail (fun _ ok => ?_) fun e failed => ?_
  · cases ok
    exact fun secures => ⟨p, good, renamed.renamed (secures _ _ _ _ _ written synced)⟩
  · cases failed
    exact kept.stays renamed.rename_failed renamed.here

/-- No plan is put in place but by saving it, whatever fails. -/
theorem sheltered (library : FileLibrary) (start : World)
    (built : ∀ (p : Plan) (now : Instant), p.Storable → p.Valid → fit (p.touch now))
    (read : ∀ s, PlansKept start s.1 → w.plan.Always library.answers (fun t => PlansKept start t.1)
      (fun p t => (∀ controls now, (p.tailor controls).Valid → fit ((p.tailor controls).touch now)) ∧
        PlansKept start t.1) (fun _ t => PlansKept start t.1) s) :
    w.Sheltered library.answers fit (fun s => PlansKept start s.1)
      fun s => library.Secures → w.Placed fit s.1 where
  early := plansKept_lasts
  late := placed_lasts
  built := built
  read := read
  saved _ _ := save_placed

/-- What is saved has been found valid. -/
theorem valid_sheltered (w : Workspace) (library : FileLibrary) (start : World) :
    w.Sheltered library.answers Plan.Valid (fun s => PlansKept start s.1)
      fun s => library.Secures → w.Placed Plan.Valid s.1 := by
  apply sheltered
  · exact fun p now _ valid => valid.touch now
  · intro s kept
    have within : Within w.Spares w.plan := plan_within.mono fun _ => .passive
    refine (within.always plansKept_lasts kept).mono (fun _ h => h) ?_ fun _ _ h => h
    exact fun p t kept => ⟨fun controls now valid => valid.touch now, kept⟩

end Workspace

/-- At each point of a run of any command, even if it is stopped there and whichever actions
have failed, the plan file is as it was, or has the whole text of a plan that the validation
accepts, if the file library secures what it is given to write. If the command fails the plan file is
as it was, whatever the library does, unless it fails in giving the lock back or in printing. -/
theorem plan_all_or_nothing (library : FileLibrary) (launch : Launch) (i : Invocation) (start : World) :
    (library.Secures → ∀ part x log,
      Program.Leads library.answers (ExceptT.run (i.run launch)) (start, []) part (x, log) →
        World.Retains i.workspaceOf.planPath start x ∨ ∃ p : Plan, (∃ issues, p.validate = .ok issues) ∧
          x.Sees i.workspaceOf.planPath p.text) ∧
    ∀ fault x log, (i.run launch).Ends library.answers (start, []) (.error fault) (x, log) →
      World.Retains i.workspaceOf.planPath start x ∨
        (∃ id, (i.run launch).FailsIn library.answers (start, []) (i.workspaceOf.release id) fault
          (x, log)) ∨
        ∃ text, (i.run launch).FailsIn library.answers (start, []) (emit text) fault (x, log) := by
  have guarded : i.workspaceOf.Guarded library.answers _ _ (i.run launch) _ (start, []) :=
    i.guarded (i.workspaceOf.valid_sheltered library start) (PlansKept.refl start)
  constructor
  · intro secures part x log led
    have sound : PlansKept start x ∨ (library.Secures → i.workspaceOf.Placed Plan.Valid x) := by
      rcases Program.Always.point guarded led with now | ⟨result, _, ended⟩
      · exact now
      · cases result with
        | ok _ => exact ended.2
        | error fault => exact ended.imp_right And.left
    rcases sound with kept | placed
    · exact .inl (kept.retains _)
    · obtain ⟨p, valid, seen⟩ := placed secures
      exact .inr ⟨p, ⟨_, valid.validate⟩, seen⟩
  · intro fault x log ended
    rcases guarded.ends_error ended with kept | ⟨_, excused⟩
    · exact .inl (kept.retains _)
    · exact .inr excused

theorem FileLibrary.prompt_ends {α : Type} (job : Job α) (start : World) : ∃ log,
    job.Ends (prompt .nothing).answers (start, []) (start.run job).1 ((start.run job).2, log) :=
  (Job.Ends.undisturbed (Job.along_nothing job start)).recorded []

open Sample in
theorem plan_all_or_nothing_sample : (FileLibrary.prompt .nothing).Secures ∧
    (∃ x log, (invocation.run launch).Ends (FileLibrary.prompt .nothing).answers
        (start twoActivities, []) (.ok ()) (x, log) ∧
      (World.Retains site.planPath (start twoActivities) x ∨
        ∃ p : Plan, (∃ issues, p.validate = .ok issues) ∧ x.Sees site.planPath p.text)) ∧
    ∃ fault x log, (invocation.run launch).Ends (FileLibrary.prompt .nothing).answers
        (World.bare, []) (.error fault) (x, log) ∧
      (World.Retains site.planPath World.bare x ∨
        (∃ id, (invocation.run launch).FailsIn (FileLibrary.prompt .nothing).answers (World.bare, [])
          (site.release id) fault (x, log)) ∨
        ∃ text, (invocation.run launch).FailsIn (FileLibrary.prompt .nothing).answers (World.bare, [])
          (emit text) fault (x, log)) := by
  have secures := FileLibrary.prompt_secures .nothing
  obtain ⟨done, _⟩ := tailored twoActivities_inParts twoActivities_storable twoActivities_valid
  obtain ⟨log, ended⟩ := FileLibrary.prompt_ends (invocation.run launch) (start twoActivities)
  obtain ⟨log', failed⟩ := FileLibrary.prompt_ends (invocation.run launch) World.bare
  have refused : (World.bare.run (invocation.run launch)).1.toOption.isNone := by decide +kernel
  rw [done] at ended
  refine ⟨secures, ⟨_, log, ended, ?_⟩, ?_⟩
  · exact (plan_all_or_nothing (.prompt .nothing) launch invocation _).1 secures _ _ _ ended
  · cases result : (World.bare.run (invocation.run launch)).1 with
    | ok a =>
        rw [result] at refused
        cases refused
    | error fault =>
        rw [result] at failed
        exact ⟨fault, _, log', failed,
          (plan_all_or_nothing (.prompt .nothing) launch invocation _).2 _ _ _ failed⟩

/-! What a library may do that does not secure what it is given to write. -/

namespace Workspace

variable {w : Workspace} {p : Plan} {start : World}

/-- Saving, as far as the draft is written. -/
def draft (w : Workspace) (p : Plan) : Job Unit := do
  w.prepare
  (← Job.perform (.create w.draftPath)) |> Job.orFail Job.ioFault
  (← Job.perform (.write w.draftPath p.text)) |> Job.orFail Job.ioFault

/-- What is left of it then. -/
def place (w : Workspace) : Job Unit := do
  (← Job.perform (.sync w.draftPath)) |> Job.orFail Job.ioFault
  (← Job.perform (.rename w.draftPath w.planPath)) |> Job.orFail Job.ioFault

theorem save_eq : w.save p = w.draft p >>= fun _ => w.place := by
  simp only [save, draft, place, bind_assoc]

theorem draft_puts : (w.draft p).Always Performed (fun _ => True)
    (fun _ x => x.Sees w.draftPath p.text) (fun _ _ => True) start := by
  refine Always.bind _ (Always.unconditional w.prepare start) fun _ x _ => ?_
  refine Always.perform_bind trivial fun answer x _ => ?_
  refine Always.orFail_bind (fun _ _ => ?_) fun _ _ => trivial
  refine Always.perform_bind trivial fun answer y written => ?_
  refine Always.orFail (fun _ ok => ?_) fun _ _ => trivial
  cases ok
  exact Undisturbed.written (R := .nothing) ⟨x, .refl x, written, trivial⟩

/-- A world that can put a draft in the plan's place can move it there. -/
theorem place_moves (placed : (start.run w.place).1 = .ok ()) :
    ∃ g, start.files.rename start.here w.draftPath w.planPath = .ok g := by
  -- The world has nothing left to write when it is asked to sync.
  have last : (start.run (Job.perform (.rename w.draftPath w.planPath) >>= Job.orFail Job.ioFault)).1 =
      .ok () := placed
  obtain ⟨answer, performed, rest⟩ := World.run_bind_eq_ok.mp last
  cases answer with
  | error e => cases rest
  | ok _ =>
      rcases start.withFiles_cases (start.files.rename start.here w.draftPath w.planPath) with
        ⟨g, same, _⟩ | ⟨e, failed⟩
      · exact ⟨g, same⟩
      · cases (congrArg Prod.fst failed).symm.trans (Except.ok.inj performed)

/-- Another text may come to stand in the draft while it is synced, and is put in the plan's place. -/
theorem place_disturbed {s₀ : String} (drafted : start.Sees w.draftPath s₀)
    (placed : (start.run w.place).1 = .ok ()) (s : String) :
    ∃ x, w.place.Ends Disturbed start (.ok ()) x ∧ x.Sees w.planPath s := by
  obtain ⟨t, leads, there⟩ := Files.look_eq_ok.mp drafted
  have put : start.files.setText start.here w.draftPath s = .ok (start.files.put t (.text s)) := by
    refine Files.setText_eq_ok.mpr ⟨t, leads, ?_, rfl⟩
    rw [there]
    exact nofun
  obtain ⟨g, moved⟩ := place_moves placed
  obtain ⟨g', moved⟩ := Files.rename_setText put moved
  have synced : Disturbed start (.sync w.draftPath) (.ok ())
      { start with files := start.files.put t (.text s) } := .inr ⟨trivial, rfl, .synced put, nofun⟩
  have renamed : Disturbed { start with files := start.files.put t (.text s) }
      (.rename w.draftPath w.planPath) (.ok ()) { start with files := g' } := by
    apply Performed.disturbed
    rw [Performed, World.perform, moved]
    rfl
  refine ⟨_, Program.Leads.step synced (Program.Leads.step renamed (.here _ _)), ?_⟩
  exact Files.rename_look moved (Files.setText_look put)

/-- Where a plan can be saved, a library that need not tell that a write has failed may put any text in
the plan's place, and there is no fault. -/
theorem unsecured_save (saves : (start.run (w.save p)).1 = .ok ()) (s : String) :
    ∃ x log, (w.save p).Ends FileLibrary.silent.answers (start, []) (.ok ()) (x, log) ∧
      x.Sees w.planPath s := by
  rw [save_eq] at saves ⊢
  obtain ⟨done, drafted, rest⟩ := World.run_bind_eq_ok.mp saves
  have ended := Job.Ends.performed (w.draft p) start
  rw [drafted] at ended
  obtain ⟨x, placed, seen⟩ := place_disturbed (draft_puts.ends_ok ended) rest s
  have prepared : (w.draft p).Ends Disturbed start (.ok done) _ := ended.refine Performed.disturbed
  have saved : (w.draft p >>= fun _ => w.place).Ends Disturbed start (.ok ()) x :=
    prepared.followed (f := fun _ => w.place) placed
  obtain ⟨log, finished⟩ := saved.recorded []
  exact ⟨x, log, finished, seen⟩

end Workspace
end AssessmentPlans
