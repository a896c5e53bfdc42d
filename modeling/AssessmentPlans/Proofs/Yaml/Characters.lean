import AssessmentPlans.Yaml.Writer

/-! The characters of a scalar, and what may stand side by side in it. -/
namespace AssessmentPlans.Yaml

/-- A character that ends neither a word nor a line. -/
def IsSolid (c : Char) : Prop := isGap c = false ∧ isBreak c = false

instance (c : Char) : Decidable (IsSolid c) := inferInstanceAs (Decidable (_ ∧ _))

/-- No gap begins with this text. -/
def Stops (cs : List Char) : Prop := ∀ c, cs.head? = some c → IsSolid c

theorem stops_nil : Stops [] := nofun

theorem stops_cons {c : Char} {cs : List Char} (h : IsSolid c) : Stops (c :: cs) := by
  rintro _ ⟨⟩
  exact h

theorem endsWord_some {c : Char} : endsWord (some c) = false ↔ IsSolid c := by
  simp [endsWord, IsSolid]

theorem solid_of_visible {c : Char} (visible : isVisible c = true) (line : isBreak c = false) :
    c = ' ' ∨ IsSolid c := by
  by_cases space : c = ' '
  · exact .inl space
  · refine .inr ⟨?_, line⟩
    have tab : c ≠ '\t' := by
      rintro rfl
      cases visible
    simp [isGap, space, tab]

/-- A line break that counts as itself. -/
def IsSeparator (c : Char) : Prop := c = '\u2028' ∨ c = '\u2029'

theorem IsSeparator.isBreak {c : Char} (h : IsSeparator c) :
    isGap c = false ∧ isBreak c = true := by
  rcases h with rfl | rfl <;> exact ⟨rfl, rfl⟩

/-- The line breaks that show themselves. -/
theorem separator_of_visible {c : Char} (visible : isVisible c = true) (line : isBreak c = true) :
    c = '\n' ∨ IsSeparator c := by
  simp only [Yaml.isBreak, Bool.or_eq_true, beq_iff_eq] at line
  rcases line with (((rfl | rfl) | rfl) | rfl) | rfl
  · exact .inl rfl
  · cases visible
  · cases visible
  · exact .inr (.inl rfl)
  · exact .inr (.inr rfl)

/-- The longest run of such characters at the beginning of a text. -/
theorem exists_run (p : Char → Bool) (cs : List Char) : ∃ s rest, cs = s ++ rest ∧
    (∀ c ∈ s, p c = true) ∧ ∀ c, rest.head? = some c → p c = false := by
  induction cs with
  | nil => exact ⟨[], [], rfl, List.forall_mem_nil _, nofun⟩
  | cons c cs ih =>
      cases found : p c with
      | true =>
          obtain ⟨s, rest, rfl, run, behind⟩ := ih
          exact ⟨c :: s, rest, rfl, List.forall_mem_cons.mpr ⟨found, run⟩, behind⟩
      | false =>
          refine ⟨[], c :: cs, rfl, List.forall_mem_nil _, ?_⟩
          rintro _ ⟨⟩
          exact found

theorem followed_eq_false {p q : Char → Bool} {cs : List Char} : followed p q cs = false ↔
    ∀ before x y after, cs = before ++ x :: y :: after → p x = true → q y = false := by
  induction cs with
  | nil => simp [followed]
  | cons c cs ih =>
      cases cs with
      | nil =>
          refine iff_of_true rfl ?_
          intro before x y after same
          have length := congrArg List.length same
          simp only [List.length_cons, List.length_append, List.length_nil] at length
          omega
      | cons d cs =>
          rw [followed, Bool.or_eq_false_iff, ih]
          constructor
          · rintro ⟨first, later⟩ before x y after same px
            cases before with
            | nil =>
                obtain ⟨rfl, rfl, rfl⟩ : c = x ∧ d = y ∧ cs = after := by simpa using same
                simpa [px] using first
            | cons b before => exact later before x y after (List.cons.inj same).2 px
          · intro each
            constructor
            · cases pc : p c with
              | false => rfl
              | true => simp [each [] c d cs rfl pc]
            · intro before x y after same
              exact each (c :: before) x y after (by rw [same, List.cons_append])

section Followed

variable {p q : Char → Bool} {cs ds : List Char} {c y : Char}

theorem followed_suffix (h : followed p q (cs ++ ds) = false) : followed p q ds = false := by
  rw [followed_eq_false] at h ⊢
  intro before x y after same
  exact h (cs ++ before) x y after (by rw [same, List.append_assoc])

theorem followed_tail (h : followed p q (c :: cs) = false) : followed p q cs = false := by
  rw [← List.singleton_append] at h
  exact followed_suffix h

theorem followed_front (h : followed p q (cs ++ ds) = false) : followed p q cs = false := by
  rw [followed_eq_false] at h ⊢
  intro before x y after same
  exact h before x y (after ++ ds) (by rw [same]; simp)

theorem followed_concat (h : followed p q cs = false)
    (last : ∀ x, cs.getLast? = some x → p x = false) :
    followed p q (cs ++ [y]) = false := by
  induction cs with
  | nil => rfl
  | cons c cs ih =>
      cases cs with
      | nil => simp [followed, last c rfl]
      | cons d cs =>
          obtain ⟨first, later⟩ := Bool.or_eq_false_iff.mp h
          rw [List.cons_append, List.cons_append, followed, first, Bool.false_or]
          exact ih later fun x found => last x (by rwa [List.getLast?_cons_cons])

theorem followed_head (h : followed p q (c :: cs) = false) (first : p c = true) :
    cs.head?.any q = false := by
  cases cs with
  | nil => rfl
  | cons d cs =>
      obtain ⟨pair, _⟩ := Bool.or_eq_false_iff.mp h
      rwa [first, Bool.true_and] at pair

end Followed

end AssessmentPlans.Yaml
