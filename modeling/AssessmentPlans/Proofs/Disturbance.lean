import AssessmentPlans.Proofs.Interleaving

/-! Executions in which any action may fail. What fails may have been done in part, except
that a file is moved as a whole or not at all. What is written may be lost without a word, unless
the file library that does the writing is known to tell. -/
namespace AssessmentPlans

namespace Files

variable {f g : Files} {here t trail : Trail} {p : Path} {s : String}

/-- The file at the end of a trail; a directory is none. -/
def file? (trail : Trail) (f : Files) : Option Entry := (f.entry? trail).filter (· ≠ .directory)

/-- What an action may leave of the files, whether it fails or not. -/
inductive Leaves (here : Trail) (f : Files) : Action → Files → Prop where
  | same (action : Action) : Leaves here f action f
  | directories {p : Path} {names : List String} (part : names <+: p.pieces) :
    Leaves here f (.makeDirectory p) (f.makeWay (if p.isAbsolute then [] else here) names).2
  | created {p : Path} {s : String} {g : Files} (put : f.setText here p s = .ok g) :
    Leaves here f (.create p) g
  | written {p : Path} {text s : String} {g : Files} (put : f.setText here p s = .ok g) :
    Leaves here f (.write p text) g
  | synced {p : Path} {s : String} {g : Files} (put : f.setText here p s = .ok g) :
    Leaves here f (.sync p) g
  | renamed {p q : Path} {g : Files} (moved : f.rename here p q = .ok g) :
    Leaves here f (.rename p q) g
  | removed {p : Path} {g : Files} (gone : f.remove here p = .ok g) : Leaves here f (.remove p) g

/-- The action does something to the file at the end of a trail. -/
def Strikes (here : Trail) (f : Files) : Action → Trail → Prop
  | .create p, t | .write p _, t | .sync p, t | .remove p, t => f.locate here p = .ok t
  | .rename p q, t => f.locate here p = .ok t ∨ f.locate here q = .ok t
  | _, _ => False

theorem Leaves.keepsDirectories {action : Action} (h : Leaves here f action g) :
    f.KeepsDirectories g := by
  cases h with
  | same => exact .refl f
  | directories part => exact fun _ => makeWay_entry?
  | created put | written put | synced put =>
      obtain ⟨t, _, notDirectory, rfl⟩ := setText_eq_ok.mp put
      exact put_keepsDirectories notDirectory
  | renamed moved =>
      obtain ⟨source, target, e, _, _, entry, notDirectory, notDirectory', rfl⟩ := rename_eq_ok.mp moved
      exact rename_keepsDirectories entry notDirectory notDirectory'
  | removed gone =>
      obtain ⟨t, _, ⟨e, entry, notDirectory⟩, rfl⟩ := remove_eq_ok.mp gone
      refine erase_keepsDirectories ?_
      rw [entry]
      exact fun same => notDirectory (Option.some.inj same)

/-- Making directories makes and changes no file. -/
theorem makeWay_file? (f : Files) (trail : Trail) (names : List String) (t : Trail) :
    file? t (f.makeWay trail names).2 = f.file? t := by
  induction names generalizing f trail with
  | nil => rfl
  | cons name names ih =>
      rw [makeWay]
      split
      · exact ih f trail
      · split
        · exact ih f trail.dropLast
        · split
          · rfl
          · dsimp only
            split
            · next absent =>
              -- Only the new directory's own trail is affected, and there was no file there.
              rw [ih]
              by_cases same : t = trail ++ [name]
              · rw [same, file?, file?, absent, entry?_put_self (by simp)]
                rfl
              · rw [file?, file?, entry?_put_of_ne same]
            · exact ih f (trail ++ [name])
            · rfl

theorem Leaves.file? {action : Action} (h : Leaves here f action g) (apart : ¬f.Strikes here action t) :
    g.file? t = f.file? t := by
  cases h with
  | same => rfl
  | directories part => exact makeWay_file? f _ _ t
  | created put | written put | synced put =>
      obtain ⟨t', leads, _, rfl⟩ := setText_eq_ok.mp put
      have ne : t ≠ t' := by
        rintro rfl
        exact apart leads
      rw [Files.file?, Files.file?, entry?_put_of_ne ne]
  | renamed moved =>
      obtain ⟨source, target, e, leads, leads', _, _, _, rfl⟩ := rename_eq_ok.mp moved
      have ne : t ≠ source := by
        rintro rfl
        exact apart (.inl leads)
      have ne' : t ≠ target := by
        rintro rfl
        exact apart (.inr leads')
      rw [Files.file?, Files.file?, entry?_put_of_ne ne', entry?_erase_of_ne ne]
  | removed gone =>
      obtain ⟨t', leads, _, rfl⟩ := remove_eq_ok.mp gone
      have ne : t ≠ t' := by
        rintro rfl
        exact apart leads
      rw [Files.file?, Files.file?, entry?_erase_of_ne ne]

theorem look_text : f.look here p = .ok (.text s) ↔
    ∃ t, f.locate here p = .ok t ∧ f.file? t = some (.text s) := by
  rw [look_eq_ok]
  refine exists_congr fun t => and_congr_right fun _ => ?_
  rw [file?]
  cases f.entry? t with
  | none => simp
  | some e => cases e <;> simp

theorem Leaves.look {action : Action} (h : Leaves here f action g)
    (apart : ∀ t, f.locate here p = .ok t → ¬f.Strikes here action t)
    (seen : f.look here p = .ok (.text s)) : g.look here p = .ok (.text s) := by
  obtain ⟨t, leads, file⟩ := look_text.mp seen
  refine look_text.mpr ⟨t, locate_mono h.keepsDirectories leads, ?_⟩
  rw [h.file? (apart t leads)]
  exact file

theorem Strikes.not_passive {action : Action} (h : f.Strikes here action t) : ¬action.Passive := by
  cases action with
  | create p | write p text | sync p | rename p q | remove p => exact id
  | _ => exact h.elim

theorem Strikes.not_harmless {action : Action} (h : f.Strikes here action t) : ¬action.Harmless := by
  rintro (passive | ⟨p, rfl⟩)
  · exact h.not_passive passive
  · exact h

theorem Leaves.passive {action : Action} (h : Leaves here f action g) (passive : action.Passive) :
    g = f := by
  cases h with
  | same => rfl
  | _ => exact passive.elim

/-- Directories have been made, and nothing else. -/
structure Furnished (f g : Files) : Prop where
  directories : f.KeepsDirectories g
  files : ∀ t, g.file? t = f.file? t

theorem Furnished.refl (f : Files) : f.Furnished f := ⟨.refl f, fun _ => rfl⟩

theorem Furnished.trans {k : Files} (h : f.Furnished g) (h' : g.Furnished k) : f.Furnished k :=
  ⟨h.directories.trans h'.directories, fun t => (h'.files t).trans (h.files t)⟩

theorem Leaves.furnished {action : Action} (left : f.Leaves here action g)
    (harmless : action.Harmless) : f.Furnished g :=
  ⟨left.keepsDirectories, fun _ => left.file? fun struck => struck.not_harmless harmless⟩

/-- What there was is still to be seen. -/
theorem Furnished.look {e : Entry} (h : f.Furnished g) (seen : f.look here p = .ok e) :
    g.look here p = .ok e := by
  obtain ⟨t, leads, there⟩ := look_eq_ok.mp seen
  refine look_eq_ok.mpr ⟨t, locate_mono h.directories leads, ?_⟩
  by_cases kind : e = .directory
  · cases kind
    exact h.directories t there
  · have file : f.file? t = some e := Option.filter_eq_some_iff.mpr ⟨there, decide_eq_true kind⟩
    exact (Option.filter_eq_some_iff.mp ((h.files t).trans file)).1

end Files

theorem World.perform_leaves (w : World) (action : Action) :
    w.files.Leaves w.here action (w.perform action).2.files := by
  cases action with
  | makeDirectory p => exact .directories (List.prefix_refl _)
  | create p =>
      rcases w.withFiles_cases (w.files.create w.here p) with ⟨g, made, run⟩ | ⟨e, run⟩
      · rw [perform, run]
        exact .created made
      · rw [perform, run]
        exact .same _
  | write p text =>
      rcases w.withFiles_cases (w.files.write w.here p text) with ⟨g, made, run⟩ | ⟨e, run⟩
      · rw [perform, run]
        exact .written made
      · rw [perform, run]
        exact .same _
  | rename p q =>
      rcases w.withFiles_cases (w.files.rename w.here p q) with ⟨g, made, run⟩ | ⟨e, run⟩
      · rw [perform, run]
        exact .renamed made
      · rw [perform, run]
        exact .same _
  | remove p =>
      rcases w.withFiles_cases (w.files.remove w.here p) with ⟨g, made, run⟩ | ⟨e, run⟩
      · rw [perform, run]
        exact .removed made
      · rw [perform, run]
        exact .same _
  | _ => exact .same _

/-- What may be answered when an action fails. To look up what is there may fail to find it. A write
may be answered before it is done, and what becomes of it need not be told by the sync either. -/
def Action.Fails : (action : Action) → action.Answer → Prop
  | .isPresent _, answer | .isFile _, answer => answer = false
  | .readText _, answer => ∃ e, answer = .error e
  | .readLines _, answer => ∃ e, answer = .error e
  | .list _, answer => ∃ e, answer = .error e
  | .makeDirectory _, answer | .create _, answer | .rename _ _, answer | .remove _, answer
  | .print _, answer => ∃ e, answer = .error e
  | .write _ _, _ | .sync _, _ => True
  | .now, _ | .freshId, _ | .tell _, _ | .warn _, _ => False

/-- The action fails, or is not done yet when it is answered, and may have been done in part. -/
structure World.Breaks (w : World) (action : Action) (answer : action.Answer) (x : World) : Prop where
  fails : action.Fails answer
  here : x.here = w.here
  left : w.files.Leaves w.here action x.files
  whole : ∀ p q, action = .rename p q → x.files = w.files

/-- The world answers, or the action fails. -/
def Disturbed : Surroundings World := fun w action answer x =>
  Undisturbed .nothing w action answer x ∨ w.Breaks action answer x

theorem Performed.disturbed : Performed.Refines Disturbed :=
  fun w _ _ _ answered => .inl ⟨w, .refl w, answered, trivial⟩

namespace Disturbed

variable {w x : World} {action : Action} {answer : action.Answer} {p q : Path} {s : String}

theorem here (h : Disturbed w action answer x) : x.here = w.here := by
  rcases h with ⟨v, stays, run, _⟩ | broken
  · have same := v.perform_here action
    rw [run] at same
    exact same.trans stays.here
  · exact broken.here

theorem leaves (h : Disturbed w action answer x) : w.files.Leaves w.here action x.files := by
  rcases h with ⟨v, stays, run, _⟩ | broken
  · have left := v.perform_leaves action
    rw [run, stays.files, stays.here] at left
    exact left
  · exact broken.left

theorem sees (h : Disturbed w action answer x)
    (apart : ∀ t, w.files.locate w.here p = .ok t → ¬w.files.Strikes w.here action t)
    (seen : w.Sees p s) : x.Sees p s := by
  rw [World.Sees, h.here]
  exact h.leaves.look apart seen

theorem stays (h : Disturbed w action answer x) (passive : action.Passive) : w.Stays x :=
  ⟨h.leaves.passive passive, h.here⟩

theorem renamed (h : Disturbed w (.rename p q) (.ok ()) x) (seen : w.Sees p s) : x.Sees q s := by
  rcases h with answered | broken
  · exact answered.renamed seen
  · obtain ⟨e, ⟨⟩⟩ := broken.fails

theorem rename_failed {e : FileError} (h : Disturbed w (.rename p q) (.error e) x) :
    x.files = w.files := by
  rcases h with ⟨v, stays, run, _⟩ | broken
  · cases World.withFiles_error run
    exact stays.files
  · exact broken.whole p q rfl

end Disturbed

/-- The world answers, at any time that can be written as a date, or the action fails; but none
on that path fails of itself. -/
def Sparing (p : Path) : Surroundings World := fun w action answer x =>
  (∃ v, w.Stays v ∧ v.time.Timely ∧ v.perform action = (answer, x)) ∨
    w.Breaks action answer x ∧ ¬action.Concerns p

namespace Sparing

variable {p : Path} {w x : World} {action : Action} {answer : action.Answer}

theorem disturbed (h : Sparing p w action answer x) : Disturbed w action answer x := by
  rcases h with ⟨v, stays, _, run⟩ | ⟨broken, _⟩
  · exact .inl ⟨v, stays, run, trivial⟩
  · exact .inr broken

/-- Where the path is concerned there is nothing but a clock that may go back. -/
theorem calm (h : Sparing p w action answer x) (own : action.Concerns p) :
    ∃ v, w.Stays v ∧ Calm .nothing v action answer x := by
  rcases h with ⟨v, stays, timely, run⟩ | ⟨_, apart⟩
  · exact ⟨v, stays, v, .refl v, timely, run, trivial⟩
  · exact absurd own apart

theorem timely {now : Instant} (h : Sparing p w .now now x) : now.Timely := by
  rcases h with ⟨v, _, timely, run⟩ | ⟨broken, _⟩
  · cases run
    exact timely
  · exact broken.fails.elim

end Sparing

/-- A file library on a machine: how actions are answered and what is left, in view of what has been
done before. Whatever fails, nothing happens to a file that an action is not on. -/
structure FileLibrary where
  answers : Surroundings (World × List Deed)
  disturbed : answers.Refines (Recorded Disturbed)

namespace FileLibrary

/-- What libraries say of writing and of syncing: a write does not return before all of the text has
been written or there is an error, and a sync waits until all that was written has reached the file.
So a text that has been written and then been synced stands in full, unless there was an error. -/
def Secures (library : FileLibrary) : Prop :=
  ∀ s t u p text, library.answers s (.write p text) (.ok ()) t →
    library.answers t (.sync p) (.ok ()) u → u.1.Sees p text

/-- The library that does everything as the world does it. -/
def prompt (R : Knowledge) : FileLibrary where
  answers := Recorded (Undisturbed R)
  disturbed := by
    rintro s action answer t ⟨⟨v, same, run, _⟩, noted⟩
    exact ⟨.inl ⟨v, same, run, trivial⟩, noted⟩

theorem prompt_secures (R : Knowledge) : (prompt R).Secures := by
  intro s t u p text written synced
  exact synced.1.synced.sees written.1.written

/-- The library of which no more is known. -/
def silent : FileLibrary where
  answers := Recorded Disturbed
  disturbed _ _ _ _ answered := answered

end FileLibrary
end AssessmentPlans
