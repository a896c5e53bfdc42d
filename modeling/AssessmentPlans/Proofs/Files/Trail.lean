import AssessmentPlans.Files.Basic
import AssessmentPlans.Proofs.Text.Split

/-! Where paths lead. A path goes on leading to the same place while no directory is lost,
and paths to entries of one directory lead to different places. -/
namespace AssessmentPlans.Files

variable {f g : Files} {trail t : Trail} {e : Entry} {here : Trail} {p : Path}

/-! Entries. -/

theorem lookup_filter_ne (entries : List (Trail × Entry)) (other : t ≠ trail) :
    (entries.filter (·.1 ≠ trail)).lookup t = entries.lookup t := by
  induction entries with
  | nil => rfl
  | cons m entries ih =>
      obtain ⟨key, e⟩ := m
      by_cases gone : key = trail
      · have ne : t ≠ key := fun same => other (same.trans gone)
        rw [List.filter_cons_of_neg (by simpa using gone), ih, List.lookup_cons, beq_false_of_ne ne]
      · rw [List.filter_cons_of_pos (by simpa using gone), List.lookup_cons, List.lookup_cons, ih]

theorem lookup_filter_self (entries : List (Trail × Entry)) :
    (entries.filter (·.1 ≠ trail)).lookup trail = none := by
  rw [List.lookup_eq_none_iff]
  intro m hm
  have ne := of_decide_eq_true (List.mem_filter.mp hm).2
  exact bne_iff_ne.mpr ne.symm

theorem entry?_put_self (below : t ≠ []) : entry? t (f.put t e) = some e := by
  unfold entry?
  rw [if_neg below, put, List.lookup_cons_self]

theorem entry?_put_of_ne (other : t ≠ trail) : entry? t (f.put trail e) = f.entry? t := by
  unfold entry?
  rw [put, List.lookup_cons, beq_false_of_ne other]
  simp only [lookup_filter_ne f.entries other]

theorem entry?_erase_of_ne (other : t ≠ trail) : entry? t (f.erase trail) = f.entry? t := by
  unfold entry?
  rw [erase, lookup_filter_ne f.entries other]

theorem entry?_erase_self (below : t ≠ []) : entry? t (f.erase t) = none := by
  unfold entry?
  rw [if_neg below, erase, lookup_filter_self]

/-- What is no directory is not the root. -/
theorem ne_root (h : f.entry? t ≠ some .directory) : t ≠ [] := by
  rintro rfl
  exact h rfl

/-! Trails. -/

/-- Every directory is still one. -/
def KeepsDirectories (f g : Files) : Prop :=
  ∀ t, f.entry? t = some .directory → g.entry? t = some .directory

theorem KeepsDirectories.refl (f : Files) : f.KeepsDirectories f := fun _ h => h

theorem KeepsDirectories.trans {k : Files} (h : f.KeepsDirectories g) (h' : g.KeepsDirectories k) :
    f.KeepsDirectories k :=
  fun t directory => h' t (h t directory)

theorem put_keepsDirectories (h : f.entry? trail ≠ some .directory) :
    f.KeepsDirectories (f.put trail e) := by
  intro t directory
  have other : t ≠ trail := by
    rintro rfl
    exact h directory
  rw [entry?_put_of_ne other]
  exact directory

theorem erase_keepsDirectories (h : f.entry? trail ≠ some .directory) :
    f.KeepsDirectories (f.erase trail) := by
  intro t directory
  have other : t ≠ trail := by
    rintro rfl
    exact h directory
  rw [entry?_erase_of_ne other]
  exact directory

theorem walk_mono (kept : f.KeepsDirectories g) {names : List String}
    (h : f.walk trail names = .ok t) : g.walk trail names = .ok t := by
  induction names generalizing trail with
  | nil => exact h
  | cons name names ih =>
      rw [walk] at h ⊢
      cases entry : f.entry? trail with
      | none => simp [entry] at h
      | some e =>
          cases e with
          | directory =>
              simp only [entry, kept trail entry] at h ⊢
              by_cases idle : Path.isIdle name = true
              · rw [if_pos idle] at h ⊢
                exact ih h
              · by_cases up : name = ".."
                · rw [if_neg idle, if_pos up] at h ⊢
                  exact ih h
                · by_cases long : nameLimit < name.utf8ByteSize
                  · rw [if_neg idle, if_neg up, if_pos long] at h
                    cases h
                  · rw [if_neg idle, if_neg up, if_neg long] at h ⊢
                    exact ih h
          | text s => simp [entry] at h
          | binary s => simp [entry] at h

theorem locate_mono (kept : f.KeepsDirectories g) (h : f.locate here p = .ok t) :
    g.locate here p = .ok t := by
  unfold locate at h ⊢
  split at h
  · cases h
  · next some =>
    rw [if_neg some]
    exact walk_mono kept h

/-! Entries of a directory. -/

/-- A name by which an entry of a directory can be found. -/
structure Proper (name : String) : Prop where
  single : '/' ∉ name.toList
  leads : Path.isIdle name = false
  down : name ≠ ".."

theorem walk_getLast? {name : String} (proper : Proper name) {names : List String}
    (h : f.walk trail (names ++ [name]) = .ok t) : t.getLast? = some name := by
  induction names generalizing trail with
  | nil =>
      rw [List.nil_append, walk] at h
      split at h
      · cases h
      · simp only [proper.leads, Bool.false_eq_true, if_false, proper.down] at h
        split at h
        · cases h
        · cases h
          exact List.getLast?_concat
      · cases h
  | cons first names ih =>
      rw [List.cons_append, walk] at h
      split at h
      · cases h
      · split at h
        · exact ih h
        · split at h
          · exact ih h
          · split at h
            · cases h
            · exact ih h
      · cases h

/-- The paths of the entries of a directory differ in the name only, which comes after a slash
or alone. -/
theorem child_text (base : Path) : ∃ front : List Char,
    (front = [] ∧ base.text = "" ∨ ∃ cs, front = cs ++ ['/'] ∧
      (base.text.toList = cs ∨ base.text.toList = cs ++ ['/'])) ∧
    ∀ name, Proper name → (base.child name).text.toList = front ++ name.toList := by
  have relative : ∀ name, Proper name → Path.isAbsolute ⟨name⟩ = false := by
    intro name proper
    rw [Path.isAbsolute, beq_eq_false_iff_ne]
    exact fun slash => proper.single (List.mem_of_mem_head? slash)
  unfold Path.child Path.join
  cases empty : base.text.isEmpty with
  | true =>
      refine ⟨[], .inl ⟨rfl, String.isEmpty_iff.mp empty⟩, fun name proper => ?_⟩
      rw [relative name proper]
      rfl
  | false =>
      cases slash : base.text.toList.getLast? == some '/' with
      | true =>
          obtain ⟨cs, ends⟩ := List.getLast?_eq_some_iff.mp (beq_iff_eq.mp slash)
          refine ⟨base.text.toList, .inr ⟨cs, ends, .inr ends⟩, fun name proper => ?_⟩
          rw [relative name proper]
          exact String.toList_append
      | false =>
          refine ⟨base.text.toList ++ ['/'], .inr ⟨_, rfl, .inl rfl⟩, fun name proper => ?_⟩
          rw [relative name proper]
          simp

/-- The name comes last in the path of an entry, and what comes before is the same for all and
leads to the directory. -/
theorem child_pieces (base : Path) : ∃ names absolute,
    (∀ name, Proper name → (base.child name).text ≠ "" ∧ (base.child name).isAbsolute = absolute ∧
      (base.child name).pieces = names ++ [name]) ∧
    (base.text ≠ "" →
      base.isAbsolute = absolute ∧ (base.pieces = names ∨ base.pieces = names ++ [""])) := by
  obtain ⟨front, own, text⟩ := child_text base
  rcases own with ⟨rfl, empty⟩ | ⟨cs, rfl, own⟩
  · refine ⟨[], false, fun name proper => ?_, fun some => absurd empty some⟩
    have same : (base.child name).text = name := String.toList_inj.mp (text name proper)
    refine ⟨?_, ?_, ?_⟩
    · rw [same]
      rintro rfl
      cases proper.leads
    · rw [Path.isAbsolute, same, beq_eq_false_iff_ne]
      exact fun slash => proper.single (List.mem_of_mem_head? slash)
    · rw [Path.pieces, Text.split, same,
        Text.splitOn_single proper.single, List.map_singleton, String.ofList_toList,
        List.nil_append]
  · refine ⟨(Text.splitOn '/' cs).map String.ofList, (cs ++ ['/']).head? == some '/', ?_, ?_⟩
    · intro name proper
      have text := text name proper
      refine ⟨?_, ?_, ?_⟩
      · intro empty
        rw [empty] at text
        simp at text
      · rw [Path.isAbsolute, text, List.head?_append]
        cases cs <;> rfl
      · rw [Path.pieces, Text.split, text, List.append_assoc, List.singleton_append,
          Text.splitOn_append, Text.splitOn_single proper.single, List.map_append,
          List.map_singleton, String.ofList_toList]
    · intro some
      rw [Path.isAbsolute, Path.pieces, Text.split]
      rcases own with own | own
      · rw [own]
        refine ⟨?_, .inl rfl⟩
        cases cs with
        | nil => exact absurd (String.toList_eq_nil_iff.mp own) some
        | cons c cs => rfl
      · rw [own]
        refine ⟨rfl, .inr ?_⟩
        rw [Text.splitOn_append, List.map_append]
        rfl

theorem walk_append {names rest : List String} :
    f.walk trail (names ++ rest) = f.walk trail names >>= fun t => f.walk t rest := by
  induction names generalizing trail with
  | nil => rfl
  | cons name names ih =>
      rw [List.cons_append, walk, walk]
      split
      · rfl
      · split
        · exact ih
        · split
          · exact ih
          · split
            · rfl
            · exact ih
      · rfl

/-- The path of an entry leads to a place of that name. -/
theorem locate_child {name : String} (proper : Proper name) {base : Path}
    (h : f.locate here (base.child name) = .ok t) : t.getLast? = some name := by
  obtain ⟨names, _, spelling, _⟩ := child_pieces base
  unfold locate at h
  split at h
  · cases h
  · rw [(spelling name proper).2.2] at h
    exact walk_getLast? proper h

end AssessmentPlans.Files
