import AssessmentPlans.Proofs.Files.Sound

/-! What stands in a directory. Each name in it is listed once, and the path of the name leads to
what stands there under it. -/
namespace AssessmentPlans.Files

variable {f : Files} {here directory : Trail} {p : Path} {name : String} {e : Entry}

/-- What stands immediately in a directory, by name, in the order in which it is listed. -/
def contents (directory : Trail) (f : Files) : List (String × Entry) :=
  f.entries.filterMap fun m => (nameWithin? directory m.1).map (·, m.2)

theorem nameWithin?_eq_some {trail : Trail} :
    nameWithin? directory trail = some name ↔ trail = directory ++ [name] := by
  unfold nameWithin?
  constructor
  · intro h
    split at h
    · next inside =>
      obtain ⟨front, rfl⟩ := List.getLast?_eq_some_iff.mp h
      rw [← inside, List.dropLast_concat]
    · cases h
  · rintro rfl
    rw [List.dropLast_concat, if_pos rfl, List.getLast?_concat]

theorem mem_contents : (name, e) ∈ f.contents directory ↔ (directory ++ [name], e) ∈ f.entries := by
  simp only [contents, List.mem_filterMap, Option.map_eq_some_iff, nameWithin?_eq_some]
  constructor
  · rintro ⟨⟨_, _⟩, member, _, rfl, same⟩
    cases same
    exact member
  · intro member
    exact ⟨_, member, name, rfl, rfl⟩

theorem contents_names : (f.contents directory).map (·.1) =
    f.entries.filterMap fun m => nameWithin? directory m.1 := by
  rw [contents, List.map_filterMap]
  refine List.filterMap_congr fun m _ => ?_
  cases nameWithin? directory m.1 <;> rfl

theorem list_eq (leads : f.locate here p = .ok directory)
    (stands : f.entry? directory = some .directory) :
    f.list here p = .ok ((f.contents directory).map (·.1)) := by
  rw [list, leads, contents_names]
  simp only [bind, Except.bind, stands]
  rfl

theorem walk_within {trail : Trail} {names : List String} (proper : Proper name)
    (short : name.utf8ByteSize ≤ nameLimit) (leads : f.walk trail names = .ok directory)
    (stands : f.entry? directory = some .directory) :
    f.walk trail (names ++ [name]) = .ok (directory ++ [name]) := by
  rw [walk_append, leads]
  show f.walk directory [name] = _
  rw [walk, stands]
  simp only [proper.leads, Bool.false_eq_true, if_false, proper.down, Nat.not_lt_of_ge short, walk]

/-- The path of a name in a directory leads to the place of that name there. -/
theorem locate_within (proper : Proper name) (short : name.utf8ByteSize ≤ nameLimit)
    (leads : f.locate here p = .ok directory) (stands : f.entry? directory = some .directory) :
    f.locate here (p.child name) = .ok (directory ++ [name]) := by
  obtain ⟨names, absolute, spelling, own⟩ := child_pieces p
  obtain ⟨some', same', pieces'⟩ := spelling name proper
  unfold locate at leads ⊢
  split at leads
  · cases leads
  · next some =>
    obtain ⟨same, pieces⟩ := own some
    rw [if_neg some', same', pieces']
    apply walk_within proper short _ stands
    rw [same] at leads
    rcases pieces with pieces | pieces
    · rw [pieces] at leads
      exact leads
    · -- the slash at the end of the path stays in the directory
      rw [pieces, walk_append] at leads
      obtain ⟨middle, before, last⟩ := bind_eq_ok.mp leads
      rw [walk] at last
      split at last
      · cases last
      · cases last
        exact before
      · cases last

namespace Sound

variable (sound : f.Sound)
include sound

theorem contents_once : ((f.contents directory).map (·.1)).Nodup := by
  have trails : (f.entries.map (·.1)).filterMap (nameWithin? directory) =
      (f.contents directory).map (·.1) := by
    rw [contents_names, List.filterMap_map]
    rfl
  rw [← trails]
  refine List.Nodup.filterMap ?_ sound.once
  intro trail trail' name own own'
  rw [nameWithin?_eq_some.mp own, nameWithin?_eq_some.mp own']

theorem entry?_of_mem {trail : Trail} (below : trail ≠ []) (member : (trail, e) ∈ f.entries) :
    f.entry? trail = some e := by
  obtain ⟨before, after, whole⟩ := List.append_of_mem member
  unfold entry?
  rw [if_neg below, List.lookup_eq_some_iff]
  refine ⟨before, after, whole, fun m earlier => ?_⟩
  have once := sound.once
  rw [whole, List.map_append, List.nodup_append] at once
  exact bne_iff_ne.mpr
    (once.2.2 _ (List.mem_map_of_mem earlier) _ List.mem_cons_self).symm

theorem look_contents (leads : f.locate here p = .ok directory)
    (stands : f.entry? directory = some .directory) (member : (name, e) ∈ f.contents directory) :
    f.look here (p.child name) = .ok e := by
  rw [mem_contents] at member
  obtain ⟨proper, short⟩ := sound.named _ member name (List.mem_append_right _ List.mem_cons_self)
  exact look_eq_ok.mpr ⟨_, locate_within proper short leads stands,
    sound.entry?_of_mem (List.append_ne_nil_of_right_ne_nil _ nofun) member⟩

end Sound
end AssessmentPlans.Files
