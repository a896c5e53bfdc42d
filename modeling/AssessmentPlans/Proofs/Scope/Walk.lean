import AssessmentPlans.Scope.Observer

/-! The walk that is observed does to a plan what tailoring does and tells of the same
events in document order, whoever observes. -/
namespace AssessmentPlans

section Walk

variable {σ τ α β : Type} {o : Observer σ} {scope : IdSet}

/-- A walk that always ends with the same result and tells of the same events. -/
def Tells (o : Observer σ) (walk : StateM σ α) (a : α) (es : List ScopeEvent) : Prop :=
  ∀ s, walk.run s = (a, es.foldl o.notice s)

namespace Tells

theorem pure (a : α) : Tells o (pure a) a [] := fun _ => rfl

theorem tell (e : ScopeEvent) : Tells o (o.tell e) () [e] := fun _ => rfl

theorem bind {walk : StateM σ α} {next : α → StateM σ β} {a : α} {b : β}
    {es fs : List ScopeEvent} (first : Tells o walk a es) (second : Tells o (next a) b fs) :
    Tells o (walk >>= next) b (es ++ fs) := by
  intro s
  rw [StateT.run_bind, first s, List.foldl_append]
  exact second _

theorem map {walk : StateM σ α} {a : α} {es : List ScopeEvent} (f : α → β)
    (h : Tells o walk a es) : Tells o (f <$> walk) (f a) es := by
  intro s
  rw [StateT.run_map, h s]
  rfl

theorem returning {walk : StateM σ α} {a : α} {es : List ScopeEvent} (f : α → β)
    (h : Tells o walk a es) : Tells o (walk >>= fun x => Pure.pure (f x)) (f a) es := by
  rw [← List.append_nil es]
  exact h.bind (.pure (f a))

theorem mapM {walk : α → StateM σ β} {f : α → β} {events : α → List ScopeEvent}
    (h : ∀ a, Tells o (walk a) (f a) (events a)) (as : List α) :
    Tells o (as.mapM walk) (as.map f) (as.flatMap events) := by
  induction as with
  | nil => exact .pure []
  | cons a as ih =>
      rw [List.mapM_cons, List.flatMap_cons]
      exact (h a).bind (ih.returning (f a :: ·))

end Tells

theorem narrowInTurn_tells (branch : Branch) (start : Nat) (ss : List Selection) :
    Tells o (narrowInTurn o scope branch start ss) (ss.map (·.narrow scope))
      (ss.mapIdx fun i s => .narrowed ⟨branch, start + i⟩ (s.outcome scope)) := by
  induction ss generalizing start with
  | nil => exact .pure []
  | cons s ss ih =>
      have rest := (ih (start + 1)).returning (s.narrow scope :: ·)
      simp only [Nat.add_assoc, Nat.add_comm 1] at rest
      rw [List.mapIdx_cons]
      exact (Tells.tell _).bind rest

theorem narrowInTurn_tells_all (branch : Branch) (ss : List Selection) :
    Tells o (narrowInTurn o scope branch 0 ss) (ss.map (·.narrow scope))
      (narrowedEvents scope branch ss) := by
  have all : Tells o (narrowInTurn o scope branch 0 ss) _ _ := narrowInTurn_tells branch 0 ss
  simp only [Nat.zero_add] at all
  exact all

theorem Review.walk_tells (branch : Branch) (r : Review) :
    Tells o (r.walk o scope branch) (r.prune scope, r.vanishes scope)
      (narrowedEvents scope branch r.selections) := by
  unfold Review.walk
  cases none : r.selections with
  | nil =>
      -- Without selections the walk does not touch the review; pruning finds nothing to drop.
      have same : r.prune scope = r := by
        cases r
        cases none
        rfl
      rw [same]
      simp only [Review.vanishes, none]
      exact .pure (r, false)
  | cons s ss =>
      simp only [Review.vanishes, Review.prune, Review.surviving, none]
      exact (narrowInTurn_tells_all branch (s :: ss)).returning
        fun narrowed => ({ r with selections := narrowed.filter (·.selectsAny) },
          (narrowed.filter (·.selectsAny)).isEmpty)

theorem walkBranch_tells (branch : Branch) (review : Option Review)
    (props : Option (List Property)) :
    Tells o (walkBranch o scope branch review props) (tailorBranch scope review props)
      (branchEvents scope branch review) := by
  cases review with
  | none => exact .pure (none, props)
  | some r =>
      refine (r.walk_tells branch).bind ?_
      simp only [tailorBranch]
      cases r.vanishes scope with
      | true => exact (Tells.tell _).returning fun _ => (none, Property.markSkipped props)
      | false => exact .pure _

theorem Step.walk_tells (owner : String) (s : Step) :
    Tells o (s.walk o scope owner) (s.tailor scope) (s.events scope owner) :=
  (walkBranch_tells _ s.reviewed s.props).returning
    fun x => { s with reviewed := x.1, props := x.2 }

theorem Activity.walk_tells (a : Activity) :
    Tells o (a.walk o scope) (a.tailor scope) (a.events scope) := by
  refine (walkBranch_tells _ a.related a.props).bind ?_
  simp only [Activity.tailor, Activity.stepList]
  cases a.steps with
  | none => exact .pure _
  | some steps =>
      exact (Tells.mapM (Step.walk_tells a.uuid) steps).returning fun steps =>
        { a with
          related := (tailorBranch scope a.related a.props).1
          props := (tailorBranch scope a.related a.props).2
          steps := some steps }

theorem LocalDefinitions.walk_tells (d : LocalDefinitions) :
    Tells o (d.walk o scope) { d with activities := d.activities.map (·.map (·.tailor scope)) }
      ((d.activities.getD []).flatMap (·.events scope)) := by
  obtain ⟨activities, others⟩ := d
  cases activities with
  | none => exact .pure _
  | some activities =>
      exact (Tells.mapM Activity.walk_tells activities).returning
        fun xs => LocalDefinitions.mk (some xs) others

/-- The walk does to a plan what tailoring does, and tells of each event in turn. -/
theorem Plan.walk_tells (p : Plan) :
    Tells o (p.walk o scope) (p.tailor scope) (p.events scope) := by
  have top : ∀ definitions, Tells o _ { p.tailor scope with definitions } _ := fun definitions =>
    (narrowInTurn_tells_all .top p.reviewed.selections).returning fun selections =>
      { p with definitions, reviewed := { p.reviewed with selections } }
  unfold Plan.walk Plan.events Plan.activities
  cases found : p.definitions with
  | none =>
      have same : p.tailor scope = { p.tailor scope with definitions := none } := by
        simp only [Plan.tailor, found, Option.map_none]
      rw [same]
      exact (Tells.pure none).bind (top none)
  | some d =>
      have same : p.tailor scope = { p.tailor scope with
          definitions := some { d with activities := d.activities.map (·.map (·.tailor scope)) } } := by
        simp only [Plan.tailor, found, Option.map_some]
      rw [same]
      exact (d.walk_tells.map some).bind (top _)

/-- Where nobody observes, the walk is the tailoring and no more. -/
theorem Plan.walk_idle (p : Plan) : (p.walk .idle scope).run () = (p.tailor scope, ()) :=
  p.walk_tells ()

theorem both_foldl (o : Observer σ) (o' : Observer τ) (es : List ScopeEvent) (s : σ × τ) :
    es.foldl (o.both o').notice s = (es.foldl o.notice s.1, es.foldl o'.notice s.2) := by
  induction es generalizing s with
  | nil => rfl
  | cons e es ih => exact ih _

theorem reporting_foldl (es : List ScopeEvent) (r : Report) :
    es.foldl Observer.reporting.notice r =
      ⟨r.entries ++ es.filterMap ScopeEvent.entry?, r.skipped ++ es.filterMap ScopeEvent.skipped?⟩ := by
  induction es generalizing r with
  | nil => simp
  | cons e es ih =>
      rw [List.foldl_cons, ih]
      cases e <;> simp [Observer.reporting, List.filterMap_cons, ScopeEvent.entry?, ScopeEvent.skipped?]

theorem reporting_foldl_blank (p : Plan) :
    (p.events scope).foldl Observer.reporting.notice .blank = p.report scope :=
  reporting_foldl _ _

theorem logging_foldl (es : List ScopeEvent) (lines : List LogLine) :
    es.foldl Observer.logging.notice lines = lines ++ es.map ScopeEvent.logLine := by
  induction es generalizing lines with
  | nil => simp
  | cons e es ih =>
      rw [List.foldl_cons, ih]
      simp [Observer.logging]

theorem logged_entries (es : List ScopeEvent) :
    ((es.map ScopeEvent.logLine).filter (·.level = .debug)).map
        (fun l => (l.details.lookup "location", l.details.lookup "after")) =
      (es.filterMap ScopeEvent.entry?).map
        fun e => (some e.location.text, some (toString e.included.length)) := by
  induction es with
  | nil => rfl
  | cons e es ih =>
      cases e with
      | narrowed location o => exact congrArg (_ :: ·) ih
      | skipped branch => exact ih

theorem logged_skipped (es : List ScopeEvent) :
    ((es.map ScopeEvent.logLine).filter (·.level = .info)).map (·.message) =
      (es.filterMap ScopeEvent.skipped?).map
        fun branch => "No controls in scope for " ++ branch.text ++ ", marked skipped" := by
  induction es with
  | nil => rfl
  | cons e es ih =>
      cases e with
      | narrowed location o => exact ih
      | skipped branch => exact congrArg (_ :: ·) ih

/-- A walk that is logged and reported tells both of the same: of each selection where it is and how
many controls are left, and of each branch that is skipped, in document order. -/
theorem Plan.walk_logged (p : Plan) : ∃ log,
    (p.walk (Observer.logging.both .reporting) scope).run ([], .blank) =
      (p.tailor scope, log, p.report scope) ∧
    (log.filter (·.level = .debug)).map
        (fun l => (l.details.lookup "location", l.details.lookup "after")) =
      (p.report scope).entries.map
        (fun e => (some e.location.text, some (toString e.included.length))) ∧
    (log.filter (·.level = .info)).map (·.message) =
      (p.report scope).skipped.map
        fun branch => "No controls in scope for " ++ branch.text ++ ", marked skipped" := by
  refine ⟨(p.events scope).map ScopeEvent.logLine, ?_, logged_entries _, logged_skipped _⟩
  rw [p.walk_tells, both_foldl, logging_foldl, reporting_foldl_blank]
  rfl

end Walk

end AssessmentPlans
