import AssessmentPlans.Proofs.Except
import AssessmentPlans.Proofs.Files.Trail

/-! What the actions on files leave behind: at their own path what they say, and at paths
that lead elsewhere what was there before. -/
namespace AssessmentPlans.Files

variable {f g : Files} {here : Trail} {p q r : Path} {e : Entry} {s : String}

theorem look_eq_ok : f.look here p = .ok e ↔ ∃ t, f.locate here p = .ok t ∧ f.entry? t = some e := by
  unfold look
  rw [bind_eq_ok]
  refine exists_congr fun t => and_congr_right fun _ => ?_
  cases f.entry? t with
  | none => exact iff_of_false nofun nofun
  | some e' =>
      constructor
      · intro h
        cases h
        rfl
      · rintro ⟨⟩
        rfl

theorem setText_eq_ok : f.setText here p s = .ok g ↔ ∃ t, f.locate here p = .ok t ∧
    f.entry? t ≠ some .directory ∧ f.put t (.text s) = g := by
  unfold setText
  rw [bind_eq_ok]
  refine exists_congr fun t => and_congr_right fun _ => ?_
  split
  · next directory => exact iff_of_false nofun fun h => h.1 directory
  · next other => exact pure_eq_ok.trans (iff_and_self.mpr fun _ => other)

theorem remove_eq_ok : f.remove here p = .ok g ↔ ∃ t, f.locate here p = .ok t ∧
    (∃ e, f.entry? t = some e ∧ e ≠ .directory) ∧ f.erase t = g := by
  unfold remove
  rw [bind_eq_ok]
  refine exists_congr fun t => and_congr_right fun _ => ?_
  cases entry : f.entry? t with
  | none => exact iff_of_false nofun nofun
  | some e =>
      cases e with
      | directory => exact iff_of_false nofun (by rintro ⟨⟨_, ⟨⟩, other⟩, _⟩; exact other rfl)
      | text s => exact pure_eq_ok.trans (iff_and_self.mpr fun _ => ⟨_, rfl, nofun⟩)
      | binary s => exact pure_eq_ok.trans (iff_and_self.mpr fun _ => ⟨_, rfl, nofun⟩)

theorem rename_eq_ok : f.rename here p q = .ok g ↔ ∃ source target e,
    f.locate here p = .ok source ∧ f.locate here q = .ok target ∧ f.entry? source = some e ∧
    e ≠ .directory ∧ f.entry? target ≠ some .directory ∧ (f.erase source).put target e = g := by
  unfold rename
  constructor
  · intro h
    obtain ⟨source, located, h⟩ := bind_eq_ok.mp h
    obtain ⟨target, located', h⟩ := bind_eq_ok.mp h
    split at h
    · cases h
    · cases h
    · cases h
    · next e notDirectory entry notDirectory' =>
      exact ⟨source, target, e, located, located', entry, notDirectory, notDirectory', pure_eq_ok.mp h⟩
  · rintro ⟨source, target, e, located, located', entry, notDirectory, notDirectory', rfl⟩
    refine bind_eq_ok.mpr ⟨source, located, bind_eq_ok.mpr ⟨target, located', ?_⟩⟩
    rw [entry]
    split
    · next absent => cases absent
    · next there => exact absurd (Option.some.inj there) notDirectory
    · next there => exact absurd there notDirectory'
    · next there _ =>
      cases there
      rfl

/-- Where one entry of a directory has its place, every other one has. -/
theorem locate_sibling {name other : String} (proper : Proper name) (proper' : Proper other)
    (short : other.utf8ByteSize ≤ nameLimit) {base : Path}
    (h : f.locate here (base.child name) = .ok t) :
    ∃ t', f.locate here (base.child other) = .ok t' := by
  obtain ⟨names, absolute, spelling, _⟩ := child_pieces base
  obtain ⟨some, same, pieces⟩ := spelling name proper
  obtain ⟨some', same', pieces'⟩ := spelling other proper'
  unfold locate at h ⊢
  rw [if_neg some, same, pieces, walk_append] at h
  rw [if_neg some', same', pieces', walk_append]
  obtain ⟨middle, leads, last⟩ := bind_eq_ok.mp h
  refine ⟨middle ++ [other], bind_eq_ok.mpr ⟨middle, leads, ?_⟩⟩
  rw [walk] at last ⊢
  split at last
  · cases last
  · simp only [proper'.leads, Bool.false_eq_true, if_false, proper'.down, Nat.not_lt_of_ge short, walk]
  · cases last

/-! Frames. -/

theorem look_mono (kept : f.KeepsDirectories g)
    (same : ∀ t, f.locate here p = .ok t → g.entry? t = f.entry? t) (h : f.look here p = .ok e) :
    g.look here p = .ok e := by
  obtain ⟨t, leads, entry⟩ := look_eq_ok.mp h
  exact look_eq_ok.mpr ⟨t, locate_mono kept leads, (same t leads).trans entry⟩

/-- The paths do not lead to one place. -/
def Apart (here : Trail) (p q : Path) (f : Files) : Prop :=
  ∀ t, f.locate here p = .ok t → f.locate here q ≠ .ok t

theorem apart_child {base : Path} {name other : String} (proper : Proper name)
    (proper' : Proper other) (ne : name ≠ other) :
    f.Apart here (base.child name) (base.child other) := by
  intro t leads leads'
  have last := locate_child proper leads
  rw [locate_child proper' leads'] at last
  cases last
  exact ne rfl

theorem setText_look (h : f.setText here p s = .ok g) : g.look here p = .ok (.text s) := by
  obtain ⟨t, leads, notDirectory, rfl⟩ := setText_eq_ok.mp h
  have kept : f.KeepsDirectories (f.put t (.text s)) := put_keepsDirectories notDirectory
  exact look_eq_ok.mpr ⟨t, locate_mono kept leads, entry?_put_self (ne_root notDirectory)⟩

theorem setText_look_apart (h : f.setText here q s = .ok g) (apart : f.Apart here p q)
    (seen : f.look here p = .ok e) : g.look here p = .ok e := by
  obtain ⟨t, leads, notDirectory, rfl⟩ := setText_eq_ok.mp h
  refine look_mono (put_keepsDirectories notDirectory) ?_ seen
  intro t' leads'
  apply entry?_put_of_ne
  rintro rfl
  exact apart t' leads' leads

theorem remove_look_apart (h : f.remove here q = .ok g) (apart : f.Apart here p q)
    (seen : f.look here p = .ok e) : g.look here p = .ok e := by
  obtain ⟨t, leads, ⟨e', entry, notDirectory⟩, rfl⟩ := remove_eq_ok.mp h
  refine look_mono (erase_keepsDirectories ?_) ?_ seen
  · rw [entry]
    exact fun same => notDirectory (Option.some.inj same)
  · intro t' leads'
    apply entry?_erase_of_ne
    rintro rfl
    exact apart t' leads' leads

/-- The directories stay, since neither the source nor the target is one. -/
theorem rename_keepsDirectories {source target : Trail} (entry : f.entry? source = some e)
    (notDirectory : e ≠ .directory) (notDirectory' : f.entry? target ≠ some .directory) :
    f.KeepsDirectories ((f.erase source).put target e) := by
  have other : f.entry? source ≠ some .directory := by
    rw [entry]
    exact fun same => notDirectory (Option.some.inj same)
  refine (erase_keepsDirectories other).trans (put_keepsDirectories ?_)
  by_cases same : target = source
  · rw [same, entry?_erase_self (ne_root other)]
    exact nofun
  · rw [entry?_erase_of_ne same]
    exact notDirectory'

theorem rename_look (h : f.rename here p q = .ok g) (seen : f.look here p = .ok e) :
    g.look here q = .ok e := by
  obtain ⟨source, target, e', located, located', entry, notDirectory, notDirectory', rfl⟩ := rename_eq_ok.mp h
  obtain ⟨t, leads, entry'⟩ := look_eq_ok.mp seen
  rw [located] at leads
  cases leads
  rw [entry] at entry'
  cases entry'
  have kept := rename_keepsDirectories entry notDirectory notDirectory'
  exact look_eq_ok.mpr ⟨target, locate_mono kept located', entry?_put_self (ne_root notDirectory')⟩

theorem rename_look_apart (h : f.rename here p q = .ok g) (apart : f.Apart here r p)
    (apart' : f.Apart here r q) (seen : f.look here r = .ok e) : g.look here r = .ok e := by
  obtain ⟨source, target, e', located, located', entry, notDirectory, notDirectory', rfl⟩ := rename_eq_ok.mp h
  refine look_mono (rename_keepsDirectories entry notDirectory notDirectory') ?_ seen
  intro t leads
  have ne : t ≠ target := by
    rintro rfl
    exact apart' t leads located'
  have ne' : t ≠ source := by
    rintro rfl
    exact apart t leads located
  rw [entry?_put_of_ne ne, entry?_erase_of_ne ne']

/-- What is in a file makes no difference to whether it can be moved. -/
theorem rename_setText (put : f.setText here p s = .ok g) (moved : f.rename here p q = .ok k) :
    ∃ k', g.rename here p q = .ok k' := by
  obtain ⟨t, leads, other, rfl⟩ := setText_eq_ok.mp put
  obtain ⟨source, target, e, located, located', _, _, notDirectory, _⟩ := rename_eq_ok.mp moved
  cases leads.symm.trans located
  have kept : f.KeepsDirectories (f.put t (.text s)) := put_keepsDirectories other
  refine ⟨_, rename_eq_ok.mpr ⟨t, target, .text s, locate_mono kept leads, locate_mono kept located',
    entry?_put_self (ne_root other), nofun, ?_, rfl⟩⟩
  by_cases same : target = t
  · rw [same, entry?_put_self (ne_root other)]
    exact nofun
  · rw [entry?_put_of_ne same]
    exact notDirectory

/-- Making directories changes nothing that is there. -/
theorem makeWay_entry? {trail : Trail} {names : List String} {t : Trail}
    (h : f.entry? t = some e) : Files.entry? t (f.makeWay trail names).2 = some e := by
  induction names generalizing f trail with
  | nil => exact h
  | cons name names ih =>
      rw [makeWay]
      split
      · exact ih h
      · split
        · exact ih h
        · split
          · exact h
          · simp only []
            split
            · next absent =>
              apply ih
              rw [entry?_put_of_ne]
              · exact h
              · rintro rfl
                rw [absent] at h
                cases h
            · exact ih h
            · exact h

theorem makeDirectory_look (seen : f.look here p = .ok e) :
    Files.look here p (f.makeDirectory here q).2 = .ok e := by
  obtain ⟨t, leads, entry⟩ := look_eq_ok.mp seen
  have kept : f.KeepsDirectories (f.makeDirectory here q).2 := fun _ => makeWay_entry?
  exact look_eq_ok.mpr ⟨t, locate_mono kept leads, makeWay_entry? entry⟩

end AssessmentPlans.Files
