import AssessmentPlans.Proofs.Conduct
import AssessmentPlans.Proofs.Files.Frame

/-! What can be seen at a path of the world, and which actions leave it there. -/
namespace AssessmentPlans

/-- The path leads to a file with that text. -/
def World.Sees (p : Path) (s : String) (w : World) : Prop := w.files.look w.here p = .ok (.text s)

/-- The action does nothing to files. To sync one does: what was written may not reach the file
before. -/
def Action.Passive : Action → Prop
  | .makeDirectory _ | .create _ | .write _ _ | .sync _ | .rename _ _ | .remove _ => False
  | _ => True

/-- The action does nothing to files, and they alone decide how it is answered. -/
def Action.Timeless : Action → Prop
  | .isPresent _ | .isFile _ | .readText _ | .readLines _ | .list _ | .print _ | .tell _
  | .warn _ => True
  | _ => False

theorem Action.Timeless.passive {action : Action} (h : action.Timeless) : action.Passive := by
  cases action with
  | makeDirectory p | create p | write p text | sync p | rename p q | remove p => exact h.elim
  | _ => trivial

/-- The action is on that path. -/
def Action.Concerns (p : Path) : Action → Prop
  | .isPresent q | .isFile q | .readText q | .readLines q | .list q | .makeDirectory q | .create q
  | .write q _ | .sync q | .remove q => q = p
  | .rename q r => q = p ∨ r = p
  | .now | .freshId | .print _ | .tell _ | .warn _ => False

/-- The action changes nothing that is there. It may make directories. -/
def Action.Harmless (action : Action) : Prop := action.Passive ∨ ∃ p, action = .makeDirectory p

namespace World

variable {w : World} {p q r : Path} {s : String}

/-- Files are changed, or there is an error and nothing happens. -/
theorem withFiles_cases (w : World) (result : Except FileError Files) :
    (∃ g, result = .ok g ∧ w.withFiles result = (.ok (), { w with files := g })) ∨
      ∃ e, w.withFiles result = (.error e, w) := by
  cases result with
  | ok g => exact .inl ⟨g, rfl, rfl⟩
  | error e => exact .inr ⟨e, rfl⟩

theorem withFiles_here (w : World) (result : Except FileError Files) :
    (w.withFiles result).2.here = w.here := by
  cases result <;> rfl

theorem withFiles_time (w : World) (result : Except FileError Files) :
    (w.withFiles result).2.time = w.time := by
  cases result <;> rfl

theorem perform_here (w : World) (action : Action) : (w.perform action).2.here = w.here := by
  cases action with
  | create p | write p text | rename p q | remove p => exact withFiles_here w _
  | _ => rfl

theorem perform_time (w : World) (action : Action) : (w.perform action).2.time = w.time := by
  cases action with
  | create p | write p text | rename p q | remove p => exact withFiles_time w _
  | _ => rfl

theorem perform_files {action : Action} (passive : action.Passive) (w : World) :
    (w.perform action).2.files = w.files := by
  cases action with
  | makeDirectory p | create p | write p text | sync p | rename p q | remove p => exact passive.elim
  | _ => rfl

/-- The files stay as they are. -/
structure Stays (w x : World) : Prop where
  files : x.files = w.files
  here : x.here = w.here

theorem Stays.refl (w : World) : w.Stays w := ⟨rfl, rfl⟩

theorem Stays.trans {x y : World} (h : w.Stays x) (h' : x.Stays y) : w.Stays y :=
  ⟨h'.files.trans h.files, h'.here.trans h.here⟩

theorem Stays.symm {x : World} (h : w.Stays x) : x.Stays w := ⟨h.files.symm, h.here.symm⟩

theorem Stays.of_passive {action : Action} (passive : action.Passive) (w : World) :
    w.Stays (w.perform action).2 :=
  ⟨perform_files passive w, perform_here w action⟩

theorem Stays.sees {x : World} (h : w.Stays x) (seen : w.Sees p s) : x.Sees p s := by
  rw [Sees, h.files, h.here]
  exact seen

theorem Stays.answer {x : World} {action : Action} (h : w.Stays x) (timeless : action.Timeless) :
    (x.perform action).1 = (w.perform action).1 := by
  obtain ⟨files, here⟩ := h
  cases action with
  | isPresent q | isFile q | readText q | readLines q | list q =>
      simp only [World.perform, files, here]
  | print text | tell line | warn line => rfl
  | _ => exact timeless.elim

/-- What is looked up at a path is the same as long as the files are. -/
theorem Stays.perform {x : World} {action : Action} (h : w.Stays x) (passive : action.Passive)
    (own : action.Concerns p) : (x.perform action).1 = (w.perform action).1 := by
  cases action with
  | now | freshId => exact own.elim
  | makeDirectory q | create q | write q text | sync q | rename q r | remove q => exact passive.elim
  | _ => exact h.answer trivial

namespace Sees

theorem isPresent (h : w.Sees p s) : w.files.isPresent w.here p = true := by
  rw [Files.isPresent, h]

theorem readText (h : w.Sees p s) : w.files.readText w.here p = .ok s := by
  rw [Files.readText, Files.readLines, h]
  rfl

theorem run_isPresent (h : w.Sees p s) : w.run (Job.isPresent p) = (.ok true, w) :=
  congrArg (fun b => (Except.ok b, w)) h.isPresent

theorem run_readText (h : w.Sees p s) : w.run (Job.perform (.readText p)) = (.ok (.ok s), w) :=
  congrArg (fun answer => (Except.ok answer, w)) h.readText

theorem of_readText (h : w.files.readText w.here p = .ok s) : w.Sees p s := by
  obtain ⟨lines, read, whole⟩ := bind_eq_ok.mp h
  obtain ⟨entry, seen, start⟩ := bind_eq_ok.mp read
  rw [Sees, seen]
  cases entry with
  | directory => cases start
  | text content =>
      cases start
      cases whole
      rfl
  | binary content =>
      cases start
      cases whole

theorem of_passive (action : Action) (passive : action.Passive) : action.Keeps (Sees p s) := by
  intro w h
  rw [Sees, perform_files passive, perform_here]
  exact h

/-- In a world everything is written at once, and nothing is left for the sync. -/
theorem of_sync : (Action.sync q).Keeps (Sees p s) := fun _ h => h

theorem of_makeDirectory : (Action.makeDirectory q).Keeps (Sees p s) :=
  fun _ h => Files.makeDirectory_look h

theorem of_harmless (action : Action) (harmless : action.Harmless) : action.Keeps (Sees p s) := by
  rcases harmless with passive | ⟨q, rfl⟩
  · exact of_passive action passive
  · exact of_makeDirectory

theorem of_withFiles {result : Except FileError Files} (h : w.Sees p s)
    (kept : ∀ g, result = .ok g → g.look w.here p = .ok (.text s)) :
    (w.withFiles result).2.Sees p s := by
  rcases w.withFiles_cases result with ⟨g, same, run⟩ | ⟨e, run⟩
  · rw [run]
    exact kept g same
  · rw [run]
    exact h

variable {base : Path} {name other other' : String}

section Sibling

variable (proper : Files.Proper name) (proper' : Files.Proper other) (ne : name ≠ other)
include proper proper' ne

theorem of_create : (Action.create (base.child other)).Keeps (Sees (base.child name) s) :=
  fun _ h => h.of_withFiles fun _ made =>
    Files.setText_look_apart made (Files.apart_child proper proper' ne) h

theorem of_write {text : String} :
    (Action.write (base.child other) text).Keeps (Sees (base.child name) s) :=
  fun _ h => h.of_withFiles fun _ made =>
    Files.setText_look_apart made (Files.apart_child proper proper' ne) h

theorem of_remove : (Action.remove (base.child other)).Keeps (Sees (base.child name) s) :=
  fun _ h => h.of_withFiles fun _ made =>
    Files.remove_look_apart made (Files.apart_child proper proper' ne) h

theorem of_rename (proper'' : Files.Proper other') (ne' : name ≠ other') :
    (Action.rename (base.child other) (base.child other')).Keeps (Sees (base.child name) s) :=
  fun _ h => h.of_withFiles fun _ made =>
    Files.rename_look_apart made (Files.apart_child proper proper' ne)
      (Files.apart_child proper proper'' ne') h

end Sibling
end Sees

/-! What an action leaves at its own path. -/

theorem perform_write (w : World) (p : Path) (s : String) :
    (∃ after, w.perform (.write p s) = (.ok (), after) ∧ after.Sees p s) ∨
      ∃ e, w.perform (.write p s) = (.error e, w) := by
  rcases w.withFiles_cases (w.files.write w.here p s) with ⟨g, made, run⟩ | failed
  · exact .inl ⟨_, run, Files.setText_look made⟩
  · exact .inr failed

theorem perform_rename (w : World) (h : w.Sees p s) (q : Path) :
    (∃ after, w.perform (.rename p q) = (.ok (), after) ∧ after.Sees q s) ∨
      ∃ e, w.perform (.rename p q) = (.error e, w) := by
  rcases w.withFiles_cases (w.files.rename w.here p q) with ⟨g, made, run⟩ | failed
  · exact .inl ⟨_, run, Files.rename_look made h⟩
  · exact .inr failed

end World

end AssessmentPlans
