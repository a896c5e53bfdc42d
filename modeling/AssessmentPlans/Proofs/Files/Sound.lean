import AssessmentPlans.Proofs.Conduct
import AssessmentPlans.Proofs.Files.Frame
import Mathlib.Data.List.Nodup

/-! Files as a tree has them. Each trail has one entry and is spelled with names by which it can be
found, and no action changes that. -/
namespace AssessmentPlans

namespace Files

/-- Names by which each place on the trail can be found. -/
def Named (trail : Trail) : Prop :=
  ∀ name ∈ trail, Proper name ∧ name.utf8ByteSize ≤ nameLimit

structure Sound (f : Files) : Prop where
  once : (f.entries.map (·.1)).Nodup
  named : ∀ m ∈ f.entries, Named m.1

instance (name : String) : Decidable (Proper name) :=
  decidable_of_iff ('/' ∉ name.toList ∧ Path.isIdle name = false ∧ name ≠ "..")
    ⟨fun h => ⟨h.1, h.2.1, h.2.2⟩, fun h => ⟨h.single, h.leads, h.down⟩⟩

instance (trail : Trail) : Decidable (Named trail) :=
  inferInstanceAs (Decidable (∀ name ∈ trail, Proper name ∧ name.utf8ByteSize ≤ nameLimit))

instance (f : Files) : Decidable f.Sound :=
  decidable_of_iff ((f.entries.map (·.1)).Nodup ∧ ∀ m ∈ f.entries, Named m.1)
    ⟨fun h => ⟨h.1, h.2⟩, fun h => ⟨h.once, h.named⟩⟩

variable {f g : Files} {here trail t : Trail} {p q : Path} {e : Entry} {s : String}

/-! Where paths lead. -/

theorem pieces_single (p : Path) : ∀ piece ∈ p.pieces, '/' ∉ piece.toList := by
  intro piece member
  obtain ⟨cs, part, rfl⟩ := List.mem_map.mp member
  rw [String.toList_ofList]
  exact (Text.splitOn_pieces cs part).1

theorem Named.concat {name : String} (named : Named trail) (single : '/' ∉ name.toList)
    (leads : ¬Path.isIdle name = true) (down : name ≠ "..") (short : ¬nameLimit < name.utf8ByteSize) :
    Named (trail ++ [name]) :=
  List.forall_mem_append.mpr ⟨named, List.forall_mem_singleton.mpr
    ⟨⟨single, Bool.eq_false_iff.mpr leads, down⟩, Nat.le_of_not_lt short⟩⟩

theorem Named.dropLast (named : Named trail) : Named trail.dropLast :=
  fun name member => named name (List.dropLast_subset trail member)

theorem walk_named {names : List String} (named : Named trail)
    (single : ∀ name ∈ names, '/' ∉ name.toList) (h : f.walk trail names = .ok t) : Named t := by
  induction names generalizing trail with
  | nil =>
      cases h
      exact named
  | cons name names ih =>
      obtain ⟨own, others⟩ := List.forall_mem_cons.mp single
      rw [walk] at h
      split at h
      · cases h
      · split at h
        · exact ih named others h
        · next leads =>
          split at h
          · exact ih named.dropLast others h
          · next down =>
            split at h
            · cases h
            · next short => exact ih (named.concat own leads down short) others h
      · cases h

theorem start_named (named : Named here) (p : Path) : Named (if p.isAbsolute then [] else here) := by
  split
  · exact List.forall_mem_nil _
  · exact named

theorem locate_named (named : Named here) (h : f.locate here p = .ok t) : Named t := by
  unfold locate at h
  split at h
  · cases h
  · exact walk_named (start_named named p) (pieces_single p) h

/-! What actions do. -/

namespace Sound

variable (sound : f.Sound)
include sound

theorem erase : (f.erase trail).Sound where
  once := sound.once.sublist (List.filter_sublist.map _)
  named m member := sound.named m (List.mem_of_mem_filter member)

theorem put (named : Named trail) : (f.put trail e).Sound where
  once := by
    refine List.nodup_cons.mpr ⟨fun again => ?_, sound.erase.once⟩
    obtain ⟨m, kept, same⟩ := List.mem_map.mp again
    exact of_decide_eq_true (List.mem_filter.mp kept).2 same
  named := List.forall_mem_cons.mpr ⟨named, sound.erase.named⟩

theorem makeWay {names : List String} (named : Named trail)
    (single : ∀ name ∈ names, '/' ∉ name.toList) : Files.Sound (f.makeWay trail names).2 := by
  induction names generalizing f trail with
  | nil => exact sound
  | cons name names ih =>
      obtain ⟨own, others⟩ := List.forall_mem_cons.mp single
      rw [Files.makeWay]
      split
      · exact ih sound named others
      · next leads =>
        split
        · exact ih sound named.dropLast others
        · next down =>
          split
          · exact sound
          · next short =>
            have further := named.concat own leads down short
            simp only []
            split
            · exact ih (sound.put further) further others
            · exact ih sound further others
            · exact sound

theorem makeDirectory (named : Named here) : Files.Sound (f.makeDirectory here p).2 :=
  sound.makeWay (start_named named p) (pieces_single p)

theorem setText (named : Named here) (h : f.setText here p s = .ok g) : g.Sound := by
  obtain ⟨t, leads, _, rfl⟩ := setText_eq_ok.mp h
  exact sound.put (locate_named named leads)

theorem remove (h : f.remove here p = .ok g) : g.Sound := by
  obtain ⟨t, _, _, rfl⟩ := remove_eq_ok.mp h
  exact sound.erase

theorem rename (named : Named here) (h : f.rename here p q = .ok g) : g.Sound := by
  obtain ⟨source, target, e, _, leads, _, _, _, rfl⟩ := rename_eq_ok.mp h
  exact sound.erase.put (locate_named named leads)

end Sound
end Files

namespace World

/-- The files are a tree, and relative paths begin at a place that can be found. -/
structure Sound (w : World) : Prop where
  files : w.files.Sound
  here : Files.Named w.here

theorem Sound.withFiles {w : World} (sound : w.Sound) {result : Except FileError Files}
    (kept : ∀ g, result = .ok g → g.Sound) : (w.withFiles result).2.Sound := by
  cases result with
  | ok g => exact ⟨kept g rfl, sound.here⟩
  | error e => exact sound

theorem Sound.keeps (action : Action) : action.Keeps Sound := by
  intro w sound
  cases action with
  | makeDirectory p => exact ⟨sound.files.makeDirectory sound.here, sound.here⟩
  | create p | write p text =>
      exact sound.withFiles fun g made => sound.files.setText sound.here made
  | rename p q => exact sound.withFiles fun g moved => sound.files.rename sound.here moved
  | remove p => exact sound.withFiles fun g removed => sound.files.remove removed
  | _ => exact ⟨sound.files, sound.here⟩

/-- Whatever is run, the files stay a tree. -/
theorem Sound.run {α : Type} {w : World} (sound : w.Sound) (p : Program α) :
    (p.run w).2.Sound := by
  induction p generalizing w with
  | done a => exact sound
  | act action next ih => exact ih _ (Sound.keeps action w sound)

end World
end AssessmentPlans
