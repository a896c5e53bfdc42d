import AssessmentPlans.Proofs.Command.Success
import AssessmentPlans.Proofs.Workspace.Contention

/-! Two runs that tailor one plan at the same time. As long as they are not both between
finding no lock file and making one, no update is lost; if they are, one may be. -/
namespace AssessmentPlans

open Job

/-- The plan but for the date of its last change. -/
def Plan.undated (p : Plan) : Plan := { p with metadata := { p.metadata with lastModified := "" } }

theorem Plan.undated_touch (p : Plan) (now : Instant) : (p.touch now).undated = p.undated := by
  simp only [undated, touch]

theorem Plan.undated_tailor (p : Plan) (scope : IdSet) :
    (p.tailor scope).undated = p.undated.tailor scope := rfl

theorem Plan.tailor_comm (p : Plan) (a b : IdSet) : (p.tailor a).tailor b = (p.tailor b).tailor a := by
  have common : ∀ id, id ∈ IdSet.ofList (a.ids.filter (· ∈ b)) ↔ id ∈ a ∧ id ∈ b := by
    intro id
    rw [IdSet.mem_ofList, List.mem_filter, decide_eq_true_iff]
    rfl
  rw [p.tailor_tailor common, p.tailor_tailor fun id => (common id).trans and_comm]

namespace Workspace

variable {w : Workspace} {x : World} {R : Knowledge} {p q : Plan} {s : String} {scope scope' : Scope}

/-- The plan file can be read as a plan, up to the date of its last change. -/
def Shows (w : Workspace) (p : Plan) (x : World) : Prop :=
  ∃ s q, x.Sees w.planPath s ∧ Plan.ofText s = .ok q ∧ q.Storable ∧ q.undated = p.undated

theorem shows_steady : w.Steady (w.Shows p) := by
  constructor
  · rintro action locks x ⟨s, q, seen, read, found⟩
    exact ⟨s, q, locks.keeps_plan action x seen, read, found⟩
  · rintro x y passed ⟨s, q, seen, read, found⟩
    exact ⟨s, q, passed.sees seen, read, found⟩

theorem Shows.of_sees (h : w.Shows p x) (storable : q.Storable) (seen : x.Sees w.planPath q.text) :
    q.undated = p.undated := by
  obtain ⟨s, q', seen', read, _, same⟩ := h
  cases seen.symm.trans seen'
  cases storable.ofText_text.symm.trans read
  exact same

theorem tailorSaved_shows (h : w.Shows p x) : (tailorSaved w scope).Always (Calm R) (fun _ => True)
    (fun _ => w.Shows (p.tailor scope.controls)) (fun _ _ => True) x := by
  obtain ⟨s, q, seen, read, storable, same⟩ := h
  have loaded : w.plan.Always (Calm R) (fun _ => True) (fun p _ => p = q) (fun _ _ => True) x :=
    (plan_timeless.passing_run (congrArg Prod.fst (run_plan seen read))).mono (fun _ h => h)
      (fun _ _ h => h.1) fun _ _ _ => trivial
  refine Always.bind _ loaded ?_
  rintro _ x rfl
  dsimp only [tailorPlan]
  have warned : ∀ lines : List String, (lines.forM warn).Always (Calm R) (fun _ => True)
      (fun _ _ => True) (fun _ _ => True) x :=
    fun _ => warnings_within.always (fun _ _ _ _ _ _ _ => trivial) trivial
  refine Always.bind _ (warned _) fun _ x _ => ?_
  split
  · exact Always.throw trivial
  · refine Always.perform_bind trivial fun now x _ => ?_
    refine Always.bind _ (save_puts.refine Calm.refines) fun _ y seen => Always.pure ?_
    have storable := (storable.tailor scope.controls).touch now
    refine ⟨_, _, seen, storable.ofText_text, storable, ?_⟩
    rw [Plan.undated_touch, Plan.undated_tailor, Plan.undated_tailor, same]

/-- The plan after some of two tailorings. -/
def tailored (p : Plan) (scope scope' : Scope) (first second : Bool) : Plan :=
  let p := if first then p.tailor scope.controls else p
  if second then p.tailor scope'.controls else p

/-- Each tailoring has its effect, whether the other one has been done or not. -/
def tailorings (w : Workspace) (R : Knowledge) (p : Plan) (scope scope' : Scope) :
    Effects w R (tailorSaved w scope) (tailorSaved w scope') where
  so a b := w.Shows (tailored p scope scope' a b)
  steady _ _ := shows_steady
  within := tailorSaved_within
  within' := tailorSaved_within
  effect b x h := by
    have done : (tailored p scope scope' false b).tailor scope.controls =
        tailored p scope scope' true b := by
      cases b with
      | false => rfl
      | true => exact p.tailor_comm _ _
    rw [← done]
    exact tailorSaved_shows h
  effect' _ _ h := tailorSaved_shows h

/-- Where there is a plan but no lock file, there is a place for one. -/
theorem Unheld.fenced {deadline : Instant} (h : w.Unheld x) (seen : x.Sees w.planPath s) :
    w.Fenced deadline x := by
  obtain ⟨t, leads, _⟩ := Files.look_text.mp seen
  obtain ⟨t', leads'⟩ := Files.locate_sibling planName_proper lockName_proper (by decide) leads
  exact .of_unheld h leads'

end Workspace

/-- Two runs tailor a plan that nobody has locked, their actions in any order, and end before a
lock can expire. As long as they are not both between finding no lock file and making one, they
do not both have the lock; and if both succeed the plan has been tailored to both scopes. -/
theorem tailor_exclusion {w : Workspace} {launch launch' : Launch} {scope scope' : Scope} {p : Plan}
    {s : String} {start : World} {scene : Scene (Except Fault Report)} {schedule : List Move}
    (begun : scene = w.contest launch launch' (tailorSaved w scope) (tailorSaved w scope') start)
    (absent : w.Unheld start) (seen : start.Sees w.planPath s) (read : Plan.ofText s = .ok p)
    (whole : p.WholeNumbers) (timely : start.time.Timely)
    (moves : ∀ m ∈ schedule, m.time.Timely ∧ m.time ≤ start.time.addSeconds Lock.lifetime)
    (apart : scene.Throughout w.Apart schedule) :
    scene.Throughout w.Excludes schedule ∧
      ((scene.play schedule).left.succeeds = true → (scene.play schedule).right.succeeds = true →
        w.Shows ((p.tailor scope.controls).tailor scope'.controls) (scene.play schedule).world) := by
  have due : start.time.Due (start.time.addSeconds Lock.lifetime) :=
    ⟨timely, Instant.le_addSeconds timely.now.second _, le_refl _⟩
  have shown : w.Shows p start := ⟨s, p, seen, read, Plan.storable_of_ofText read whole, rfl⟩
  exact Workspace.contest_throughout (w.tailorings _ p scope scope') begun (absent.fenced seen) due shown
    moves apart

/-! Two runs that tailor a plan with one control, which one of the scopes has. -/
namespace Rivals

open Takeover

def text : String :=
  "\x7b\"assessment-plan\":\x7b\"uuid\":\"11111111-1111-4111-8111-111111111111\"," ++
  "\"metadata\":\x7b\"title\":\"R\"\x7d,\"import-ssp\":\x7b\"href\":\"\"\x7d," ++
  "\"reviewed-controls\":\x7b\"control-selections\":" ++
  "[\x7b\"include-controls\":[\x7b\"control-id\":\"a\"\x7d]\x7d]\x7d\x7d\x7d"

def start : World := { World.bare with
  files := ⟨[(["complytime"], .directory), (["complytime", "assessment-plan.json"], .text text)]⟩ }

def leftScope : Scope := ⟨"f", .ofList ["a"]⟩

def rightScope : Scope := ⟨"f", .ofList ["b"]⟩

def scene : Scene (Except Fault Report) :=
  site.contest launch launch (tailorSaved site leftScope) (tailorSaved site rightScope) start

def turns (rounds : List (Bool × Nat)) : List Move :=
  rounds.flatMap fun (left, n) => List.replicate n ⟨left, start.time⟩

theorem time_of_mem_turns {rounds : List (Bool × Nat)} {m : Move} (h : m ∈ turns rounds) :
    m.time = start.time := by
  obtain ⟨_, _, member⟩ := List.mem_flatMap.mp h
  rw [List.eq_of_mem_replicate member]

def selected (p : Plan) : List (List String) := p.reviewed.selections.map (·.includedIds)

/-- Nothing stands in the plan beside its fields, and it defines nothing. -/
def isPlain (p : Plan) : Bool :=
  p.metadata.others.isEmpty && p.systemPlan.others.isEmpty && p.definitions.isNone &&
    p.reviewed.props.isNone && p.reviewed.others.isEmpty && p.others.isEmpty &&
    p.reviewed.selections.all fun s => s.props.isNone && s.others.isEmpty

theorem isPlain_wholeNumbers {p : Plan} (h : isPlain p = true) : p.WholeNumbers := by
  simp only [isPlain, Bool.and_eq_true, List.isEmpty_iff, Option.isNone_iff_eq_none,
    List.all_eq_true] at h
  obtain ⟨⟨⟨⟨⟨⟨metadata, systemPlan⟩, definitions⟩, props⟩, others⟩, others'⟩, selections⟩ := h
  refine ⟨?_, ?_, ?_, ⟨?_, ?_, ?_⟩, ?_⟩
  · simp [Metadata.Every, metadata]
  · simp [SystemPlan.Every, systemPlan]
  · simp [definitions]
  · simp [EveryProps, props]
  · intro s member
    obtain ⟨props, others⟩ := selections s member
    exact ⟨by simp [EveryProps, props], by simp [others]⟩
  · simp [others]
  · simp [others']

theorem text_read : ∃ p, Plan.ofText text = .ok p ∧ p.WholeNumbers ∧
    selected (p.tailor leftScope.controls) ≠
      selected ((p.tailor leftScope.controls).tailor rightScope.controls) := by
  -- Plans are not compared, so all that matters of this one is found in one evaluation.
  have found : (Plan.ofText text).toOption.any (fun p => isPlain p &&
      selected (p.tailor leftScope.controls) !=
        selected ((p.tailor leftScope.controls).tailor rightScope.controls)) = true := by
    decide +kernel
  cases read : Plan.ofText text with
  | error fault =>
      rw [read] at found
      cases found
  | ok p =>
      rw [read] at found
      obtain ⟨plain, differ⟩ := (Bool.and_eq_true _ _).mp found
      exact ⟨p, rfl, isPlain_wholeNumbers plain, bne_iff_ne.mp differ⟩

/-- A run takes eight actions to have the lock, nine for the plan, and four to give the lock back. -/
def inTurn : List Move := turns [(false, 21), (true, 21)]

theorem inTurn_played : scene.Throughout site.Apart inTurn ∧
    (scene.play inTurn).left.succeeds = true ∧ (scene.play inTurn).right.succeeds = true := by
  decide +kernel

theorem tailor_exclusion_in_turn : ∃ p, Plan.ofText text = .ok p ∧
    scene.Throughout site.Apart inTurn ∧ scene.Throughout site.Excludes inTurn ∧
    (scene.play inTurn).left.succeeds = true ∧ (scene.play inTurn).right.succeeds = true ∧
    site.Shows ((p.tailor leftScope.controls).tailor rightScope.controls) (scene.play inTurn).world := by
  obtain ⟨p, read, whole, _⟩ := text_read
  have timely : start.time.Timely := by
    constructor <;> constructor <;> decide
  have moves : ∀ m ∈ inTurn, m.time.Timely ∧ m.time ≤ start.time.addSeconds Lock.lifetime := by
    intro m member
    rw [time_of_mem_turns member]
    exact ⟨timely, by decide⟩
  have absent : site.Unheld start := rfl
  have seen : start.Sees site.planPath text := rfl
  obtain ⟨apart, success, success'⟩ := inTurn_played
  obtain ⟨excludes, shown⟩ := tailor_exclusion rfl absent seen read whole timely moves apart
  exact ⟨p, read, apart, excludes, success, success', shown success success'⟩

/-- The right side makes a lock file after the left one has looked for one, and the left side
then makes its own. -/
def overlap : List Move := turns [(true, 1), (false, 8), (true, 7)]

/-- Both sides read the plan, then the right one saves it, then the left one. -/
def race : List Move :=
  overlap ++ turns [(false, 2), (true, 2), (false, 7), (true, 6), (false, 2), (true, 4)]

theorem race_played : ¬site.Excludes (scene.play overlap) ∧ (scene.play race).left.succeeds = true ∧
    (scene.play race).right.succeeds = true ∧
    (Plan.ofText text).toOption.map (fun p => ((p.tailor leftScope.controls).touch start.time).text) =
      ((scene.play race).world.files.readText (scene.play race).world.here site.planPath).toOption := by
  decide +kernel

/-- If both sides find no lock file, both take the lock, both succeed, and what one of them has
done to the plan is lost. -/
theorem tailor_race : ∃ p, Plan.ofText text = .ok p ∧ p.WholeNumbers ∧
    start.Sees site.planPath text ∧ site.Unheld start ∧ overlap <+: race ∧
    (∀ m ∈ race, m.time = start.time) ∧ ¬site.Excludes (scene.play overlap) ∧
    (scene.play race).left.succeeds = true ∧ (scene.play race).right.succeeds = true ∧
    ¬site.Shows ((p.tailor leftScope.controls).tailor rightScope.controls) (scene.play race).world := by
  obtain ⟨p, read, whole, differ⟩ := text_read
  obtain ⟨both, success, success', saved⟩ := race_played
  have storable : ((p.tailor leftScope.controls).touch start.time).Storable :=
    ((Plan.storable_of_ofText read whole).tailor _).touch _
  rw [read] at saved
  have seen := World.Sees.of_readText (toOption_eq_some.mp saved.symm)
  have now : ∀ m ∈ race, m.time = start.time :=
    fun m member => (List.mem_append.mp member).elim time_of_mem_turns time_of_mem_turns
  refine ⟨p, read, whole, rfl, rfl, List.prefix_append _ _, now, both, success, success', fun shown => differ ?_⟩
  have same : selected ((p.tailor leftScope.controls).touch start.time).undated =
      selected ((p.tailor leftScope.controls).tailor rightScope.controls).undated :=
    congrArg selected (shown.of_sees storable seen)
  exact same

end Rivals
end AssessmentPlans
