import AssessmentPlans.Proofs.Calm
import AssessmentPlans.Proofs.Workspace.Locking
import AssessmentPlans.Proofs.Workspace.Saving
import Mathlib.Data.List.Nodup

/-! Locks exclude each other. A lock that was granted and still lives is the one in the
lock file, so no other one is granted meanwhile, and only its own identifier removes it. -/
namespace AssessmentPlans

open Job

theorem length_le_one {α : Type} {as : List α} (nodup : as.Nodup)
    (same : ∀ a ∈ as, ∀ b ∈ as, b = a) : as.length ≤ 1 := by
  cases as with
  | nil => exact Nat.zero_le 1
  | cons a as =>
      have all := List.eq_replicate_of_mem (same a List.mem_cons_self)
      rw [all] at nodup
      exact List.nodup_replicate.mp nodup

theorem Lock.IsExpired.mono {l : Lock} {t t' : Instant} (h : l.IsExpired t) (later : t ≤ t') :
    l.IsExpired t' :=
  lt_of_lt_of_le h later

namespace Workspace

variable {w : Workspace} {x y : World} {l : Lock} {R : Knowledge} {launch : Launch}
  {holder id : String} {now : Instant}

/-- There is no lock file. -/
def Unheld (w : Workspace) (x : World) : Prop := x.files.isPresent x.here w.lockPath = false

/-- The lock file is that of a lock. -/
def Held (w : Workspace) (l : Lock) (x : World) : Prop :=
  ∃ s, x.Sees w.lockPath s ∧ Lock.ofText s = .ok l

/-- No lock is in the way of another one. -/
def Vacant (w : Workspace) (x : World) (now : Instant) : Prop :=
  w.Unheld x ∨ ∃ held, w.Held held x ∧ held.IsExpired now

theorem Held.unique {l' : Lock} (h : w.Held l x) (h' : w.Held l' x) : l = l' := by
  obtain ⟨s, seen, read⟩ := h
  obtain ⟨s', seen', read'⟩ := h'
  cases seen.symm.trans seen'
  cases read.symm.trans read'
  rfl

theorem Held.not_unheld (h : w.Held l x) : ¬w.Unheld x := by
  obtain ⟨s, seen, _⟩ := h
  rw [Unheld, seen.isPresent]
  exact nofun

theorem Held.passes (h : w.Held l x) (same : x.Passes y) : w.Held l y := by
  obtain ⟨s, seen, read⟩ := h
  refine ⟨s, ?_, read⟩
  rw [World.Sees, same.files, same.here]
  exact seen

theorem Held.of_datable (datable : l.Datable) (seen : x.Sees w.lockPath l.text) : w.Held l x :=
  ⟨l.text, seen, datable.ofText_text⟩

/-- Where looking up the lock file shows what is there, so does asking for the lock. -/
theorem lock?_shown {env : Surroundings World} {inv : World → Prop}
    (looks : ∀ y action answer z, action.Passive → action.Concerns w.lockPath → inv y →
      env y action answer z → inv z ∧ answer = (x.perform action).1) (met : inv x) :
    Always env (fun _ => True) w.lock?
      (fun found y => inv y ∧ ((found = none ∧ w.Unheld x) ∨ ∃ l, found = some l ∧ w.Held l x))
      (fun _ y => inv y ∧ ¬w.Unheld x ∧ ∀ l, ¬w.Held l x) x := by
  unfold lock?
  refine Always.perform_bind trivial fun present y looked => ?_
  obtain ⟨met, shown⟩ := looks _ (.isPresent w.lockPath) _ _ trivial rfl met looked
  change present = x.files.isPresent x.here w.lockPath at shown
  split
  · next absent =>
    refine Always.pure ⟨met, .inl ⟨rfl, ?_⟩⟩
    rw [Unheld, ← shown]
    exact (Bool.not_eq_true' _).mp absent
  · next found =>
    have there : ¬w.Unheld x := by
      rw [Unheld, ← shown]
      exact fun absent => found ((Bool.not_eq_true' _).mpr absent)
    refine Always.perform_bind trivial fun answer z looked => ?_
    obtain ⟨met, text⟩ := looks _ (.readText w.lockPath) _ _ trivial rfl met looked
    change answer = x.files.readText x.here w.lockPath at text
    refine Always.orFail_bind (fun s read => ?_) fun e unread => ⟨met, there, ?_⟩
    · have seen := World.Sees.of_readText (text.symm.trans read)
      split
      · next lock parsed => exact Always.pure ⟨met, .inr ⟨lock, rfl, s, seen, parsed⟩⟩
      · next fault unread =>
        refine Always.throw ⟨met, there, fun l held => ?_⟩
        obtain ⟨s, seen', parsed⟩ := held
        cases seen.symm.trans seen'
        cases unread.symm.trans parsed
    · rintro l ⟨s, seen, _⟩
      cases (text.symm.trans unread).symm.trans seen.readText

theorem lock?_always : Always (Calm R) (fun _ => True) w.lock?
    (fun found y => x.Passes y ∧ ((found = none ∧ w.Unheld x) ∨ ∃ l, found = some l ∧ w.Held l x))
    (fun _ y => x.Passes y ∧ ¬w.Unheld x ∧ ∀ l, ¬w.Held l x) x := by
  refine lock?_shown (fun y action answer z passive own passed done => ?_) (.refl x)
  have shown := passed.stays.perform passive own
  exact ⟨passed.trans (done.passes passive), (done.shown passive own).trans shown⟩

theorem prepare_always (later : x.time ≤ y.time) : Always (Calm R) (fun _ => True) w.prepare
    (fun _ z => x.time ≤ z.time) (fun _ z => x.time ≤ z.time ∧ ¬R.Sure) y := by
  refine Always.perform_bind trivial fun present z looked => ?_
  have later := le_trans later looked.time
  cases present with
  | true => exact Always.pure later
  | false =>
      refine Always.perform_bind trivial fun answer z made => ?_
      have later := le_trans later made.time
      have known := Calm.unsure fun sure => sure _ _ made.known
      exact Always.orFail (fun _ _ => later) fun e failed => ⟨later, known e failed⟩

/-- Writing a lock fails only with one of its actions. -/
theorem writeLock_always (later : x.time ≤ y.time) : Always (Calm R) (fun _ => True)
    (w.writeLock l) (fun _ z => x.time ≤ z.time ∧ z.Sees w.lockPath l.text)
    (fun _ z => x.time ≤ z.time ∧ ¬R.Sure) y := by
  refine Always.bind _ (prepare_always later) fun _ z later => ?_
  refine Always.perform_bind trivial fun answer z made => ?_
  have later := le_trans later made.time
  have known := Calm.unsure fun sure => sure _ _ made.known
  refine Always.orFail_bind (fun _ _ => ?_) fun e failed => ⟨later, known e failed⟩
  refine Always.perform_bind trivial fun answer z written => ?_
  have later := le_trans later written.time
  have known := Calm.unsure fun sure => sure _ _ written.known
  refine Always.orFail_bind (fun _ ok => ?_) fun e failed => ⟨later, known e failed⟩
  cases ok
  refine Always.perform_bind trivial fun answer z synced => ?_
  have later := le_trans later synced.time
  have known := Calm.unsure fun sure => sure _ _ synced.known
  refine Always.orFail (fun _ _ => ⟨later, ?_⟩) fun e failed => ⟨later, known e failed⟩
  exact synced.synced.2.sees written.write

theorem take_always (later : x.time ≤ y.time) : Always (Calm R) (fun _ => True)
    (w.take launch holder) (fun lock z => x.time ≤ z.time ∧ w.Held lock z)
    (fun _ z => x.time ≤ z.time ∧ ¬R.Sure) y := by
  have named : Always (Calm R) (fun z => x.time ≤ z.time) (nameHolder launch holder)
      (fun _ z => x.time ≤ z.time) (fun _ _ => False) y := by
    unfold nameHolder
    split
    · exact Always.perform_bind later fun _ z given => Always.pure (le_trans later given.time)
    · exact Always.pure later
  refine Always.bind _ (named.mono (fun _ _ => trivial) (fun _ _ h => h) fun _ _ => False.elim) ?_
  intro holder z later
  refine Always.perform_bind trivial fun now z read => ?_
  have later := le_trans later read.time
  have timely := read.now.2
  refine Always.perform_bind trivial fun id z given => ?_
  refine Always.bind _ (writeLock_always (le_trans later given.time)) ?_
  rintro _ z ⟨later, seen⟩
  exact Always.pure ⟨later, .of_datable (Lock.make_datable timely) seen⟩

/-- A lock is granted only if none is in the way. If none is, only the failure of an action
prevents it; otherwise nothing is changed. -/
theorem acquire_always : Always (Calm R) (fun _ => True) (w.acquire launch holder)
    (fun lock y => w.Held lock y ∧ ∃ now, x.time ≤ now ∧ now ≤ y.time ∧ w.Vacant x now)
    (fun _ y => ∃ now, x.time ≤ now ∧ now ≤ y.time ∧
      (w.Vacant x now ∧ ¬R.Sure ∨ ¬w.Vacant x now ∧ x.Passes y)) x := by
  rw [acquire_eq]
  refine Always.bind _ (lock?_always.mono (fun _ h => h) (fun _ _ h => h) ?_) ?_
  · rintro _ y ⟨passed, present, unread⟩
    have taken : ¬w.Vacant x x.time := by
      rintro (absent | ⟨held, here, _⟩)
      · exact present absent
      · exact unread held here
    exact ⟨x.time, le_refl _, passed.time, .inr ⟨taken, passed⟩⟩
  rintro found y ⟨passed, ⟨rfl, absent⟩ | ⟨held, rfl, here⟩⟩
  · have vacant : w.Vacant x x.time := .inl absent
    refine (take_always passed.time).mono (fun _ h => h) ?_ ?_
    · rintro lock z ⟨later, here⟩
      exact ⟨here, x.time, le_refl _, later, vacant⟩
    · rintro _ z ⟨later, failed⟩
      exact ⟨x.time, le_refl _, later, .inl ⟨vacant, failed⟩⟩
  · -- Time may pass between the look at the lock and the look at the clock, which decides.
    refine Always.perform_bind trivial fun now z read => ?_
    have passed := passed.trans (read.passes trivial)
    obtain ⟨time, _⟩ := read.now
    have later : x.time ≤ now := time ▸ passed.time
    split
    · next expired =>
      have vacant : w.Vacant x now := .inr ⟨held, here, expired⟩
      refine (take_always (x := z) (le_refl _)).mono (fun _ h => h) ?_ ?_
      · rintro lock z ⟨later', here⟩
        exact ⟨here, now, later, time ▸ later', vacant⟩
      · rintro _ z ⟨later', failed⟩
        exact ⟨now, later, time ▸ later', .inl ⟨vacant, failed⟩⟩
    · next live =>
      have taken : ¬w.Vacant x now := by
        rintro (absent | ⟨held', here', expired⟩)
        · exact here.not_unheld absent
        · cases here.unique here'
          exact live expired
      exact Always.throw ⟨now, later, time.ge, .inr ⟨taken, passed⟩⟩

theorem removeLock_always (later : x.time ≤ y.time) : Always (Calm R) (fun _ => True) w.removeLock
    (fun _ z => x.time ≤ z.time ∧ w.Unheld z) (fun _ z => y.Passes z) y := by
  refine Always.perform_bind trivial fun present z looked => ?_
  have passed := looked.passes trivial
  have later := le_trans later looked.time
  have same := looked.isPresent
  cases present with
  | false =>
      refine Always.pure ⟨later, ?_⟩
      rw [Unheld, passed.files, passed.here]
      exact same.symm
  | true =>
      refine Always.perform_bind trivial fun answer u removed => ?_
      refine Always.orFail (fun _ ok => ?_) fun e failed => ?_
      · cases ok
        exact ⟨le_trans later removed.time, removed.removed⟩
      · cases failed
        exact passed.trans removed.remove_failed

/-- A lock is given back only by its own identifier. -/
theorem release_always : Always (Calm R) (fun _ => True) (w.release id)
    (fun _ y => x.Passes y ∧ (∀ l, w.Held l x → l.id ≠ id) ∨
      x.time ≤ y.time ∧ w.Unheld y ∧ ∃ l, w.Held l x ∧ l.id = id)
    (fun _ y => x.Passes y) x := by
  refine Always.bind _ (lock?_always.mono (fun _ h => h) (fun _ _ h => h) fun _ _ h => h.1) ?_
  rintro found y ⟨passed, ⟨rfl, absent⟩ | ⟨held, rfl, here⟩⟩
  · exact Always.pure (.inl ⟨passed, fun l here => absurd absent here.not_unheld⟩)
  · dsimp only
    split
    · next own =>
      refine (removeLock_always passed.time).mono (fun _ h => h) ?_ fun _ _ => passed.trans
      rintro _ z ⟨later, gone⟩
      exact .inr ⟨later, gone, held, here, own⟩
    · next other =>
      refine Always.pure (.inl ⟨passed, fun l here' => ?_⟩)
      rw [here'.unique here]
      exact other

/-- What calls have led to, one after the other: the world, the locks that were granted, last
first, and those among them that have not been given back by their own identifier. -/
inductive History (w : Workspace) (start : World) : World → List Lock → List Lock → Prop where
  | unheld (absent : w.Unheld start) : History w start start [] []
  | held {l : Lock} (there : w.Held l start) : History w start start [l] [l]
  | granted {x y : World} {granted out : List Lock} {launch : Launch} {holder : String} {lock : Lock}
    (h : History w start x granted out)
    (call : (w.acquire launch holder).Ends (Calm .nothing) x (.ok lock) y)
    (fresh : ∀ l ∈ granted, lock.id ≠ l.id) : History w start y (lock :: granted) (lock :: out)
  | refused {x y : World} {granted out : List Lock} {launch : Launch} {holder : String}
    {fault : Fault} (h : History w start x granted out)
    (call : (w.acquire launch holder).Ends (Calm .nothing) x (.error fault) y) :
    History w start y granted out
  | released {x y : World} {granted out : List Lock} {id : String} (h : History w start x granted out)
    (call : (w.release id).Ends (Calm .nothing) x (.ok ()) y) :
    History w start y granted (out.filter (·.id ≠ id))
  | kept {x y : World} {granted out : List Lock} {id : String} {fault : Fault}
    (h : History w start x granted out)
    (call : (w.release id).Ends (Calm .nothing) x (.error fault) y) :
    History w start y granted out
  | looked {x y : World} {granted out : List Lock} {found : Except Fault (Option Lock)}
    (h : History w start x granted out) (call : w.lock?.Ends (Calm .nothing) x found y) :
    History w start y granted out

/-- What calls leave to be relied on: of the locks that are out, a live one is in the file. -/
structure Orderly (w : Workspace) (x : World) (granted out : List Lock) : Prop where
  live : ∀ l ∈ out, ¬l.IsExpired x.time → w.Held l x
  known : out.Sublist granted
  distinct : (granted.map (·.id)).Nodup

namespace Orderly

variable {granted out : List Lock}

theorem of_passes (h : w.Orderly x granted out) (passed : x.Passes y) : w.Orderly y granted out where
  live l member live := (h.live l member fun expired => live (expired.mono passed.time)).passes passed
  known := h.known
  distinct := h.distinct

/-- Where no lock is in the way, none of those that are out lives on. -/
theorem expired (h : w.Orderly x granted out) (vacant : w.Vacant x now) (since : x.time ≤ now) :
    ∀ l ∈ out, l.IsExpired now := by
  intro l member
  by_contra live
  have here := h.live l member fun expired => live (expired.mono since)
  rcases vacant with absent | ⟨held, here', expired⟩
  · exact here.not_unheld absent
  · cases here.unique here'
    exact live expired

theorem single (h : w.Orderly x granted out) (since : x.time ≤ now) :
    (out.filter fun l => ¬l.IsExpired now).length ≤ 1 := by
  have nodup : (out.filter fun l => ¬l.IsExpired now).Nodup :=
    (h.distinct.of_map.sublist h.known).filter _
  have here : ∀ l ∈ out.filter fun l => ¬l.IsExpired now, w.Held l x := by
    intro l member
    obtain ⟨member, live⟩ := List.mem_filter.mp member
    exact h.live l member fun expired => of_decide_eq_true live (expired.mono since)
  exact length_le_one nodup fun l member l' member' => (here l' member').unique (here l member)

theorem of_granted {lock : Lock} (h : w.Orderly x granted out)
    (call : (w.acquire launch holder).Ends (Calm .nothing) x (.ok lock) y)
    (fresh : ∀ l ∈ granted, lock.id ≠ l.id) : w.Orderly y (lock :: granted) (lock :: out) := by
  obtain ⟨here, now, since, until', vacant⟩ := acquire_always.ends_ok call
  refine ⟨?_, h.known.cons_cons lock, List.nodup_cons.mpr ⟨?_, h.distinct⟩⟩
  · intro l member live
    rcases List.mem_cons.mp member with rfl | member
    · exact here
    · exact absurd ((h.expired vacant since l member).mono until') live
  · intro repeated
    obtain ⟨l, member, same⟩ := List.mem_map.mp repeated
    exact fresh l member same.symm

theorem of_refused {fault : Fault} (h : w.Orderly x granted out)
    (call : (w.acquire launch holder).Ends (Calm .nothing) x (.error fault) y) :
    w.Orderly y granted out := by
  obtain ⟨now, since, until', ⟨vacant, _⟩ | ⟨_, passed⟩⟩ := acquire_always.ends_error call
  · refine ⟨fun l member live => ?_, h.known, h.distinct⟩
    exact absurd ((h.expired vacant since l member).mono until') live
  · exact h.of_passes passed

theorem of_released (h : w.Orderly x granted out)
    (call : (w.release id).Ends (Calm .nothing) x (.ok ()) y) :
    w.Orderly y granted (out.filter (·.id ≠ id)) := by
  have known : (out.filter (·.id ≠ id)).Sublist granted := List.filter_sublist.trans h.known
  rcases release_always.ends_ok call with ⟨passed, _⟩ | ⟨later, _, held, here, own⟩
  · refine ⟨fun l member live => ?_, known, h.distinct⟩
    exact (h.of_passes passed).live l (List.mem_filter.mp member).1 live
  · refine ⟨fun l member live => ?_, known, h.distinct⟩
    obtain ⟨member, other⟩ := List.mem_filter.mp member
    -- a live lock would be the one in the file, which has the identifier
    have here' := h.live l member fun expired => live (expired.mono later)
    cases here'.unique here
    exact absurd own (of_decide_eq_true other)

end Orderly

theorem History.orderly {start : World} {granted out : List Lock}
    (h : w.History start x granted out) : w.Orderly x granted out := by
  induction h with
  | unheld absent => exact ⟨fun _ member => absurd member List.not_mem_nil, .refl _, List.nodup_nil⟩
  | held there =>
      refine ⟨fun l member _ => ?_, .refl _, List.nodup_singleton _⟩
      rw [List.mem_singleton.mp member]
      exact there
  | granted _ call fresh ih => exact ih.of_granted call fresh
  | refused _ call ih => exact ih.of_refused call
  | released _ call ih => exact ih.of_released call
  | kept _ call ih => exact ih.of_passes (release_always.ends_error call)
  | @looked _ _ _ _ found _ call ih =>
      cases found with
      | ok found => exact ih.of_passes (lock?_always.ends_ok call).1
      | error fault => exact ih.of_passes (lock?_always.ends_error call).1

/-- After any calls, from any number of holders, at most one of the locks that were granted
and not given back lives at any time. The next call grants a lock only if there is no lock
file or the lock in it has expired by then, and does so unless an action fails; otherwise it
changes nothing. Giving back changes the files only if the lock file has that identifier, so
the lock that was taken over by another one does not remove that one. -/
theorem lock_exclusion {start : World} {granted out : List Lock}
    (h : w.History start x granted out) :
    (∀ now, x.time ≤ now → (out.filter fun l => ¬l.IsExpired now).length ≤ 1) ∧
      (∀ R launch holder r y, (w.acquire launch holder).Ends (Calm R) x r y →
        ∃ now, x.time ≤ now ∧ now ≤ y.time ∧
          ((∃ lock, r = .ok lock) → w.Vacant x now) ∧
          (w.Vacant x now → R.Sure → ∃ lock, r = .ok lock) ∧
          (¬w.Vacant x now → y.files = x.files)) ∧
      (∀ id r y, (w.release id).Ends (Calm .nothing) x r y →
        y.files ≠ x.files → ∃ l, w.Held l x ∧ l.id = id) ∧
      ∀ old ∈ granted, ∀ l ∈ granted, l ≠ old → w.Held l x →
        ∀ r y, (w.release old.id).Ends (Calm .nothing) x r y → w.Held l y := by
  have orderly := h.orderly
  refine ⟨fun now since => orderly.single since, ?_, ?_, ?_⟩
  · intro R launch holder r y call
    cases r with
    | ok lock =>
        obtain ⟨_, now, since, until', vacant⟩ := acquire_always.ends_ok call
        exact ⟨now, since, until', fun _ => vacant, fun _ _ => ⟨lock, rfl⟩,
          fun taken => absurd vacant taken⟩
    | error fault =>
        obtain ⟨now, since, until', ⟨vacant, failed⟩ | ⟨taken, passed⟩⟩ :=
          acquire_always.ends_error call
        · exact ⟨now, since, until', nofun, fun _ sure => absurd sure failed,
            fun taken => absurd vacant taken⟩
        · exact ⟨now, since, until', nofun, fun vacant => absurd vacant taken, fun _ => passed.files⟩
  · intro id r y call changed
    cases r with
    | ok _ =>
        rcases release_always.ends_ok call with ⟨passed, _⟩ | ⟨_, _, held⟩
        · exact absurd passed.files changed
        · exact held
    | error fault => exact absurd (release_always.ends_error call).files changed
  · intro old member l member' ne here r y call
    cases r with
    | ok _ =>
        rcases release_always.ends_ok call with ⟨passed, _⟩ | ⟨_, _, held, here', own⟩
        · exact here.passes passed
        · cases here.unique here'
          exact absurd (List.inj_on_of_nodup_map orderly.distinct member' member own) ne
    | error fault => exact here.passes (release_always.ends_error call)

end Workspace

/-! A lock that is taken over when it has expired. -/
namespace Takeover

def site : Workspace := ⟨⟨"./complytime"⟩⟩

def launch : Launch := ⟨[], ⟨"/"⟩, "host", 1, false⟩

def first : Lock := .make (World.bare.identifier 0) "first" World.bare.time

def late : Instant := World.bare.time.addSeconds (Lock.lifetime + 1)

def second : Lock := .make (World.bare.identifier 1) "second" late

def held : World := (World.bare.run (site.acquire launch "first")).2

def waited : World := { held with time := late }

/-- The world in which the second holder has taken over. -/
def passed : World := (waited.run (site.acquire launch "second")).2

theorem lock_exclusion_takeover :
    site.History World.bare passed [second, first] [second, first] ∧ site.Held second passed ∧
      ([second, first].filter fun l => ¬l.IsExpired late).length ≤ 1 ∧
      ∀ r y, (site.release first.id).Ends (Calm .nothing) passed r y → site.Held second y := by
  have timely : World.bare.time.Timely := by
    constructor <;> constructor <;> decide
  have timely' : late.Timely := by
    constructor <;> constructor <;> decide
  have granted : (World.bare.run (site.acquire launch "first")).1 = .ok first := by
    decide +kernel
  have granted' : (waited.run (site.acquire launch "second")).1 = .ok second := by
    decide +kernel
  have call : (site.acquire launch "first").Ends (Calm .nothing) World.bare (.ok first) held :=
    granted ▸ Program.Leads.of_run timely
  have call' : (site.acquire launch "second").Ends (Calm .nothing) waited
      (.ok second) passed := granted' ▸ Program.Leads.of_run timely'
  have early : held.Passes waited := ⟨rfl, rfl, (World.run_time _ _).trans_le (by decide)⟩
  have taken : (site.acquire launch "second").Ends (Calm .nothing) held (.ok second) passed :=
    call'.later early
  have history : site.History World.bare passed [second, first] [second, first] :=
    .granted (.granted (.unheld rfl) call (by simp)) taken (by decide)
  have still : passed.time = late := by rw [passed, World.run_time, waited]
  obtain ⟨here, _⟩ := Workspace.acquire_always.ends_ok taken
  obtain ⟨single, _, _, apart⟩ := Workspace.lock_exclusion history
  refine ⟨history, here, single late still.le, ?_⟩
  exact apart first (by simp) second (by simp) (by decide) here

end Takeover
end AssessmentPlans
