import AssessmentPlans.Command.Session
import AssessmentPlans.Proofs.Command.Atomicity
import Mathlib.Data.List.Chain

/-! Runs of the program one after another, each of them complete before the next one begins. While
a run lasts the clock goes on, or is set, and nobody else does anything to the files. Between two
runs everything may change but the plan file. -/
namespace AssessmentPlans

open Job

/-- Numbers in the plan that is read are whole, except in fields that are known. -/
def Knowledge.whole (w : Workspace) : Knowledge
  | .readText p, answer =>
    p = w.planPath → ∀ s plan, answer = .ok s → Plan.ofText s = .ok plan → plan.WholeNumbers
  | _, _ => True

section Runs

variable {R : Knowledge} {w : Workspace} {start x y : World} {launch : Launch} {i : Invocation}
  {result : Except Fault Unit}

namespace Workspace

/-- The plan file has the text of a plan that can be read back and is valid. -/
def Planned (w : Workspace) : World → Prop := w.Placed fun p => p.Storable ∧ p.Valid

/-- The plan that is loaded can be stored again. -/
def LoadsStorable (w : Workspace) (R : Knowledge) (x : World) : Prop :=
  w.plan.Always (Undisturbed R) (fun _ => True) (fun p _ => p.Storable) (fun _ _ => True) x

theorem Planned.stays (h : w.Planned x) (stays : x.Stays y) : w.Planned y := by
  obtain ⟨p, good, seen⟩ := h
  exact ⟨p, good, stays.sees seen⟩

theorem Planned.loadsStorable (h : w.Planned x) : w.LoadsStorable R x := by
  obtain ⟨p, ⟨storable, _⟩, seen⟩ := h
  have run := Workspace.run_plan seen storable.ofText_text
  refine (plan_timeless.undisturbed (.refl x)).mono (fun _ _ => trivial) ?_ fun _ _ _ => trivial
  rintro q y ⟨loaded, _⟩
  rw [run] at loaded
  cases loaded
  exact storable

theorem loadsStorable_whole : w.LoadsStorable (.whole w) x := by
  have found : w.plan?.Always (Undisturbed (.whole w)) (fun _ => True)
      (fun found _ => ∀ p, found = some p → p.Storable) (fun _ _ => True) x := by
    unfold plan?
    refine Always.perform_bind trivial fun present y _ => ?_
    split
    · exact Always.pure nofun
    · refine Always.perform_bind trivial fun answer z read => ?_
      obtain ⟨_, _, _, whole⟩ := read
      refine Always.orFail_bind (fun s ok => ?_) fun _ _ => trivial
      split
      · next p parsed =>
        refine Always.pure ?_
        rintro _ ⟨⟩
        exact Plan.storable_of_ofText parsed (whole rfl s p ok parsed)
      · exact Always.throw trivial
  refine Always.bind _ found fun found y storable => ?_
  cases found with
  | some p => exact Always.pure (storable p rfl)
  | none => exact Always.throw trivial

/-- What is saved can be stored and is valid, if that is so of what is loaded. -/
theorem planned_sheltered (loads : ∀ x, PlansKept start x → w.LoadsStorable R x) :
    w.Sheltered (FileLibrary.prompt R).answers (fun p => p.Storable ∧ p.Valid)
      (fun s => PlansKept start s.1) fun s => (FileLibrary.prompt R).Secures → w.Planned s.1 := by
  apply sheltered
  · exact fun p now storable valid => ⟨storable.touch now, valid.touch now⟩
  · intro s kept
    have within : Within w.Spares w.plan := plan_within.mono fun _ => .passive
    have loaded : w.plan.Always (FileLibrary.prompt R).answers _ _ _ s := (loads s.1 kept).recorded
    refine (loaded.and (within.always plansKept_lasts kept)).mono (fun _ h => h.2) ?_ fun _ _ h => h.2
    rintro p t ⟨storable, kept⟩
    exact ⟨fun controls now valid => ⟨(storable.tailor controls).touch now, valid.touch now⟩, kept⟩

end Workspace

/-- A command puts no other plans in place, and one that succeeds in writing a plan does put one. -/
theorem Invocation.planned (i : Invocation)
    (loads : ∀ x, PlansKept start x → i.workspaceOf.LoadsStorable R x)
    (ended : (i.run launch).Ends (Undisturbed R) start result x) :
    (PlansKept start x ∨ i.workspaceOf.Planned x) ∧
      (i.command.Writes → result = .ok () → i.workspaceOf.Planned x) := by
  obtain ⟨log, recorded⟩ := Program.Leads.recorded ended []
  have secures := FileLibrary.prompt_secures R
  have guarded : i.workspaceOf.Guarded (FileLibrary.prompt R).answers _ _ (i.run launch) _ (start, []) :=
    i.guarded (Workspace.planned_sheltered loads) (PlansKept.refl start)
  cases result with
  | ok a =>
      obtain ⟨placed, either⟩ := guarded.ends_ok recorded
      exact ⟨either.imp_right fun late => late secures, fun writes _ => placed writes secures⟩
  | error fault =>
      refine ⟨?_, nofun⟩
      rcases guarded.ends_error recorded with kept | ⟨late, _⟩
      · exact .inl kept
      · exact .inr (late secures)

theorem Invocation.keeps_planned (i : Invocation) (planned : i.workspaceOf.Planned start)
    (ended : (i.run launch).Ends (Undisturbed R) start result x) : i.workspaceOf.Planned x := by
  have loads : ∀ x, PlansKept start x → i.workspaceOf.LoadsStorable R x := by
    intro x kept
    obtain ⟨p, good, seen⟩ := planned
    exact Workspace.Planned.loadsStorable ⟨p, good, kept.sees seen⟩
  rcases (i.planned loads ended).1 with kept | placed
  · obtain ⟨p, good, seen⟩ := planned
    exact ⟨p, good, kept.sees seen⟩
  · exact placed

/-- Checking a plan that stands there finds no fault. -/
theorem validate_ends {format : OutputFormat} {warnings : Bool} (planned : w.Planned start)
    (ended : (runValidate launch format w warnings).Ends (Undisturbed R) start result x) :
    result = .ok () := by
  obtain ⟨p, ⟨storable, valid⟩, seen⟩ := planned
  have run : (start.run (runValidate launch format w warnings)).1 = .ok () :=
    run_validate seen storable.ofText_text valid
  cases result with
  | ok _ => rfl
  | error fault =>
      have failed := ((runValidate_timeless.undisturbed (.refl start)).ends_error ended).1
      cases run.symm.trans failed

/-- The program comes to its end with its command, or goes on to tell the fault of the command. -/
theorem session_ended {env : Surroundings World} {args : List String} {code : Nat}
    (asked : Invocation.ofArguments launch.valueOf? args = .ok i)
    (ran : (session launch args).Leads env start (.done code) y) :
    ((i.run launch).Ends env start (.ok ()) y ∧ code = 0) ∨ ∃ fault x,
      (i.run launch).Ends env start (.error fault) x ∧
        env x (.tell ("Error: " ++ fault.message)) () y ∧ code = 1 := by
  unfold session at ran
  rw [asked] at ran
  obtain ⟨result, x, ended, rest⟩ := Program.Leads.of_bind ran
  cases result with
  | ok _ =>
      cases rest
      exact .inl ⟨ended, rfl⟩
  | error fault =>
      obtain _ | ⟨told, rest⟩ := rest
      cases rest
      exact .inr ⟨fault, x, ended, told, rfl⟩

theorem session_run {args : List String}
    (asked : Invocation.ofArguments launch.valueOf? args = .ok i)
    (done : (start.run (i.run launch)).1 = .ok ()) :
    (session launch args).run start = (0, (start.run (i.run launch)).2) := by
  unfold session
  rw [asked]
  refine (Program.run_bind (ExceptT.run (i.run launch)) _ start).trans ?_
  have run : (ExceptT.run (i.run launch)).run start = start.run (i.run launch) := rfl
  rw [run, done]
  rfl

theorem session_along {args : List String}
    (asked : Invocation.ofArguments launch.valueOf? args = .ok i)
    (done : (start.run (i.run launch)).1 = .ok ()) (along : Along R start (i.run launch)) :
    (session launch args).Along R start := by
  unfold session
  rw [asked]
  refine Program.along_bind.mpr ⟨along, ?_⟩
  have run : (ExceptT.run (i.run launch)).run start = start.run (i.run launch) := rfl
  rw [run, done]
  trivial

end Runs

/-- A run of the program with arguments that it accepts, and what it came to. -/
structure Turn where
  launch : Launch
  args : List String
  invocation : Invocation
  asked : Invocation.ofArguments launch.valueOf? args = .ok invocation
  start : World
  finish : World
  exitCode : Nat
  ran : (session launch args).Leads (Undisturbed .nothing) start (.done exitCode) finish

namespace Turn

def workspace (t : Turn) : Workspace := t.invocation.workspaceOf

/-- The run may have been one in these surroundings. -/
def In (t : Turn) (env : Surroundings World) : Prop :=
  (session t.launch t.args).Leads env t.start (.done t.exitCode) t.finish

/-- The next run finds the plan file as this one has left it. -/
def Before (t u : Turn) : Prop :=
  u.start.files.look u.start.here u.workspace.planPath =
    t.finish.files.look t.finish.here t.workspace.planPath

/-- Nothing stands in the way: a lock that is there has expired, the clock goes on and shows times
that have dates, and no action fails. -/
structure Unhindered (t : Turn) : Prop where
  unlocked : t.workspace.Unlocked t.start
  success : t.In (Calm .success)

/-- The configuration that is to be used can be loaded and is accepted. -/
def Configured (t : Turn) (file : Option String) : Prop :=
  ∃ c launch warnings,
    (t.start.run (ScopeConfig.load t.launch t.workspace.root (file.map Path.mk))).1 = .ok (c, launch) ∧
      c.validate none = .ok warnings

variable {t u : Turn}

/-- The run of the command, and whether it is told to have failed. -/
theorem ended {R : Knowledge} (ran : t.In (Undisturbed R)) : ∃ result x,
    (t.invocation.run t.launch).Ends (Undisturbed R) t.start result x ∧ x.Stays t.finish ∧
      (t.exitCode = 0 ↔ result = .ok ()) := by
  rcases session_ended t.asked ran with ⟨ended, code⟩ | ⟨fault, x, ended, told, code⟩
  · exact ⟨.ok (), t.finish, ended, .refl _, iff_of_true code rfl⟩
  · refine ⟨.error fault, x, ended, told.stays trivial, iff_of_false ?_ nofun⟩
    rw [code]
    exact Nat.one_ne_zero

theorem keeps_planned (h : t.workspace.Planned t.start) : t.workspace.Planned t.finish := by
  obtain ⟨result, x, ended, stays, _⟩ := ended t.ran
  exact (t.invocation.keeps_planned h ended).stays stays

theorem writes_planned (writes : t.invocation.command.Writes) (done : t.exitCode = 0)
    (whole : t.In (Undisturbed (.whole t.workspace))) : t.workspace.Planned t.finish := by
  obtain ⟨result, x, ended, stays, zero⟩ := ended whole
  have loads : ∀ x, PlansKept t.start x → t.workspace.LoadsStorable (.whole t.workspace) x :=
    fun _ _ => Workspace.loadsStorable_whole
  exact ((t.invocation.planned loads ended).2 writes (zero.mp done)).stays stays

theorem Before.planned (h : t.Before u) (planned : t.workspace.Planned t.finish) :
    u.workspace.Planned u.start := by
  obtain ⟨p, good, seen⟩ := planned
  exact ⟨p, good, h.trans seen⟩

theorem validate_succeeds {warnings : Bool} (asks : t.invocation.command = .validate warnings)
    (planned : t.workspace.Planned t.start) : t.exitCode = 0 := by
  obtain ⟨result, x, ended, _, zero⟩ := ended t.ran
  unfold Invocation.run at ended
  rw [asks] at ended
  exact zero.mpr (validate_ends planned ended)

theorem tailor_succeeds {file : Option String} (asks : t.invocation.command = .tailor file)
    (configured : t.Configured file) (unhindered : t.Unhindered)
    (planned : t.workspace.Planned t.start) : t.exitCode = 0 := by
  obtain ⟨c, launch, warnings, loaded, accepted⟩ := configured
  obtain ⟨p, ⟨storable, valid⟩, seen⟩ := planned
  rcases session_ended t.asked unhindered.success with ⟨_, code⟩ | ⟨fault, x, ended, _⟩
  · exact code
  · unfold Invocation.run at ended
    rw [asks] at ended
    have succeeds : (runTailor t.launch t.invocation.output t.workspace _).Succeeds _ t.start :=
      runTailor_succeeds loaded accepted unhindered.unlocked seen storable.ofText_text valid
    exact (succeeds.ends_error ended).elim

/-- A plan that stands after one run stands before every later one. -/
theorem planned_throughout {later : List Turn} (history : (t :: later).IsChain Before)
    (planned : t.workspace.Planned t.finish) : ∀ u ∈ later, u.workspace.Planned u.start := by
  induction later generalizing t with
  | nil => exact List.forall_mem_nil _
  | cons u later ih =>
      obtain ⟨next, rest⟩ := List.isChain_cons_cons.mp history
      have found := next.planned planned
      exact List.forall_mem_cons.mpr ⟨found, ih rest (keeps_planned found)⟩

end Turn

/-- Once a run has written a plan, the plan file can be read after each run from then on, and
checking it succeeds. So does every later run that tailors the plan, as long as nothing stands
in its way and its configuration is accepted. -/
theorem plan_stays_usable {earlier later : List Turn} {t : Turn}
    (history : (earlier ++ t :: later).IsChain Turn.Before) (writes : t.invocation.command.Writes)
    (done : t.exitCode = 0) (whole : t.In (Undisturbed (.whole t.workspace))) :
    (∀ u ∈ t :: later, (∃ p, (u.finish.run u.workspace.plan).1 = .ok p) ∧
      ∀ v warnings, u.Before v → v.invocation.command = .validate warnings → v.exitCode = 0) ∧
    ∀ u ∈ later, ∀ file, u.invocation.command = .tailor file → u.Unhindered → u.Configured file →
      u.exitCode = 0 := by
  have planned := Turn.writes_planned writes done whole
  have throughout := Turn.planned_throughout history.right_of_append planned
  have after : ∀ u ∈ t :: later, u.workspace.Planned u.finish :=
    List.forall_mem_cons.mpr ⟨planned, fun u member => Turn.keeps_planned (throughout u member)⟩
  refine ⟨fun u member => ⟨?_, ?_⟩, ?_⟩
  · obtain ⟨p, ⟨storable, _⟩, seen⟩ := after u member
    exact ⟨p, congrArg Prod.fst (Workspace.run_plan seen storable.ofText_text)⟩
  · intro v warnings next asks
    exact Turn.validate_succeeds asks (next.planned (after u member))
  · intro u member file asks unhindered configured
    exact Turn.tailor_succeeds asks configured unhindered (throughout u member)

namespace Turn

variable {R : Knowledge} {launch : Launch} {args : List String} {i : Invocation}
  {asked : Invocation.ofArguments launch.valueOf? args = .ok i} {start : World}

/-- The run in a world whose clock stands still meanwhile. -/
def ofRun (launch : Launch) (args : List String) (i : Invocation)
    (asked : Invocation.ofArguments launch.valueOf? args = .ok i) (start : World) : Turn where
  launch := launch
  args := args
  invocation := i
  asked := asked
  start := start
  finish := ((session launch args).run start).2
  exitCode := ((session launch args).run start).1
  ran := .undisturbed (Program.along_nothing _ start)

theorem ofRun_undisturbed (along : (session launch args).Along R start) :
    (ofRun launch args i asked start).In (Undisturbed R) :=
  .undisturbed along

theorem ofRun_calm (timely : start.time.Timely) (along : (session launch args).Along R start) :
    (ofRun launch args i asked start).In (Calm R) :=
  .of_along timely along

theorem ofRun_done (done : (start.run (i.run launch)).1 = .ok ()) :
    (ofRun launch args i asked start).exitCode = 0 ∧
      (ofRun launch args i asked start).finish = (start.run (i.run launch)).2 := by
  have run := session_run asked done
  exact ⟨congrArg Prod.fst run, congrArg Prod.snd run⟩

theorem before_ofRun (t : Turn) (same : i.workspaceOf = t.workspace) :
    t.Before (ofRun launch args i asked t.finish) := by
  show t.finish.files.look t.finish.here i.workspaceOf.planPath = _
  rw [same]

end Turn

namespace Sample

theorem tailor_asked : Invocation.ofArguments launch.valueOf? ["tailor", "-w", "w"] = .ok invocation := by
  decide +kernel

/-- A run that tailors the plan. -/
def tailoring (p : Plan) : Turn := .ofRun launch ["tailor", "-w", "w"] invocation tailor_asked (start p)

/-- A run that checks what such a run has left. -/
def checking (p : Plan) : Turn :=
  .ofRun launch ["validate", "-w", "w"] ⟨"w", none, false, .text, .validate false⟩ (by decide +kernel)
    (tailoring p).finish

section Tailoring

variable {p : Plan} (parts : TailorsInParts site launch config own p (start p)) (storable : p.Storable)
  (valid : p.Valid)
include parts storable valid

theorem tailoring_along {R : Knowledge} (wider : ∀ action answer, site.quiet action answer → R action answer)
    (present : R (.isPresent site.planPath) true) (text : R (.readText site.planPath) (.ok p.text)) :
    (session launch ["tailor", "-w", "w"]).Along R (start p) :=
  session_along tailor_asked (tailored parts storable valid).1
    (parts.along (start_sees p) storable wider present text)

theorem tailoring_whole : (tailoring p).In (Undisturbed (.whole site)) := by
  refine Turn.ofRun_undisturbed (tailoring_along parts storable valid ?_ trivial ?_)
  · rintro action answer ⟨_, unread⟩
    cases action with
    | readText q => exact fun same => absurd (congrArg Action.readText same) unread
    | _ => trivial
  · intro _ s plan ok read
    cases ok
    cases storable.ofText_text.symm.trans read
    exact storable.wholeNumbers

theorem tailoring_unhindered : (tailoring p).Unhindered where
  unlocked := start_unlocked p
  success := Turn.ofRun_calm (start_timely p)
    (tailoring_along parts storable valid (fun _ _ h => h.1) trivial ⟨_, rfl⟩)

theorem tailoring_finish : (tailoring p).exitCode = 0 ∧
    (tailoring p).finish.Sees site.planPath ((p.tailor config.scope.controls).touch World.bare.time).text := by
  obtain ⟨done, seen⟩ := tailored parts storable valid
  have finished : (tailoring p).exitCode = 0 ∧
      (tailoring p).finish = ((start p).run (invocation.run launch)).2 := Turn.ofRun_done done
  rw [finished.2]
  exact ⟨finished.1, seen⟩

end Tailoring

theorem plan_stays_usable_sample :
    [tailoring twoActivities, tailoring narrowed].IsChain Turn.Before ∧
    (tailoring twoActivities).exitCode = 0 ∧
    (tailoring twoActivities).In (Undisturbed (.whole site)) ∧
    (tailoring narrowed).Unhindered ∧ (tailoring narrowed).Configured none ∧
    (∃ p, ((tailoring twoActivities).finish.run site.plan).1 = .ok p) ∧
    (tailoring narrowed).exitCode = 0 ∧ (checking narrowed).exitCode = 0 := by
  have storable := twoActivities_storable
  have valid := twoActivities_valid
  have parts := twoActivities_inParts
  obtain ⟨done, left⟩ := tailoring_finish parts storable valid
  have whole := tailoring_whole parts storable valid
  have history : [tailoring twoActivities, tailoring narrowed].IsChain Turn.Before := by
    refine .cons_cons ?_ (.singleton _)
    exact (start_sees narrowed).trans left.symm
  have writes : (tailoring twoActivities).invocation.command.Writes := trivial
  obtain ⟨after, again⟩ := @plan_stays_usable [] [tailoring narrowed] (tailoring twoActivities) history
    writes done whole
  have unhindered : (tailoring narrowed).Unhindered :=
    tailoring_unhindered narrowed_inParts ((storable.tailor _).touch _) narrowed_valid
  obtain ⟨loaded, warnings, accepted⟩ := loadValid_eq_ok (toOption_eq_some.mp narrowed_inParts.1.1)
  have configured : (tailoring narrowed).Configured none := ⟨config, launch, warnings, loaded, accepted⟩
  have next : (tailoring narrowed).Before (checking narrowed) := Turn.before_ofRun (tailoring narrowed) rfl
  have first := after (tailoring twoActivities) List.mem_cons_self
  have second := after (tailoring narrowed) (List.mem_cons_of_mem _ List.mem_cons_self)
  exact ⟨history, done, whole, unhindered, configured, first.1,
    again _ List.mem_cons_self none rfl unhindered configured, second.2 (checking narrowed) false next rfl⟩

end Sample
end AssessmentPlans
