import AssessmentPlans.Proofs.Yaml.Gap
import AssessmentPlans.Yaml.Plain

/-! Plain scalars are read as what they say: words with spaces between them, up to the end
of the line. -/
namespace AssessmentPlans.Yaml

section Word

variable {w back cs : List Char} {c x : Char} {fuel i l k : Nat}

theorem readPlainWord_cons (solid : IsSolid c) (inner : (c == ':' && endsWord cs.head?) = false) :
    readPlainWord false (fuel + 1) back ⟨c :: cs, i, l, k⟩ =
      readPlainWord false fuel (c :: back) ⟨cs, i + 1, l, k + 1⟩ := by
  have next : (c :: cs)[1]? = cs.head? := by cases cs <;> rfl
  rw [readPlainWord]
  simp [solid.1, solid.2, next, inner]

/-- A word ends where a gap or the line does, if no colon stands before it. -/
theorem readPlainWord_word (solid : ∀ c ∈ w, IsSolid c) (ends : endsWord (some x) = true)
    (colons : followed (· == ':') (fun c => isGap c || isBreak c) (w ++ [x]) = false)
    (lasts : w.length < fuel) : readPlainWord false fuel back ⟨w ++ x :: cs, i, l, k⟩ =
      .ok (w.reverse ++ back, false, ⟨x :: cs, i + w.length, l, k + w.length⟩) := by
  induction w generalizing back fuel i k with
  | nil =>
      obtain ⟨fuel, rfl⟩ := Nat.exists_eq_add_one.mpr lasts
      simp only [endsWord, Bool.or_eq_true] at ends
      rw [List.nil_append, readPlainWord]
      simp [ends]
  | cons c w ih =>
      obtain ⟨first, later⟩ := List.forall_mem_cons.mp solid
      obtain ⟨fuel, rfl⟩ := Nat.exists_eq_add_one.mpr (Nat.zero_lt_of_lt lasts)
      have inner : (c == ':' && endsWord (w ++ x :: cs).head?) = false := by
        cases w with
        | nil =>
            have alone := colons
            simp only [List.nil_append, List.cons_append, followed, Bool.or_false] at alone
            exact alone
        | cons d w =>
            have next := endsWord_some.mpr (later d List.mem_cons_self)
            simp only [List.cons_append, List.head?_cons, next, Bool.and_false]
      have colons : followed (· == ':') (fun c => isGap c || isBreak c) (w ++ [x]) = false :=
        followed_tail colons
      rw [List.cons_append, readPlainWord_cons first inner,
        ih later colons (Nat.lt_of_succ_lt_succ lasts)]
      simp [Nat.add_assoc, Nat.add_comm 1]

/-- The name of a member ends at the colon behind it. -/
theorem readPlainWord_key (solid : ∀ c ∈ w, IsSolid c) (names : ':' ∉ w)
    (ends : endsWord (some x) = true) (lasts : w.length < fuel) :
    readPlainWord false fuel back ⟨w ++ ':' :: x :: cs, i, l, k⟩ =
      .ok (w.reverse ++ back, true, ⟨':' :: x :: cs, i + w.length, l, k + w.length⟩) := by
  induction w generalizing back fuel i k with
  | nil =>
      obtain ⟨fuel, rfl⟩ := Nat.exists_eq_add_one.mpr lasts
      rw [List.nil_append, readPlainWord]
      simp [isGap, isBreak, ends]
  | cons c w ih =>
      obtain ⟨first, later⟩ := List.forall_mem_cons.mp solid
      obtain ⟨other, others⟩ := not_or.mp (mt List.mem_cons.mpr names)
      obtain ⟨fuel, rfl⟩ := Nat.exists_eq_add_one.mpr (Nat.zero_lt_of_lt lasts)
      have inner : (c == ':' && endsWord (w ++ ':' :: x :: cs).head?) = false := by
        rw [beq_false_of_ne (Ne.symm other), Bool.false_and]
      rw [List.cons_append, readPlainWord_cons first inner,
        ih later others (Nat.lt_of_succ_lt_succ lasts)]
      simp [Nat.add_assoc, Nat.add_comm 1]

end Word

/-- A line of words, as it can be written plain. -/
structure PlainText (cs : List Char) : Prop where
  chars : ∀ c ∈ cs, c = ' ' ∨ IsSolid c
  first : ∃ c rest, cs = c :: rest ∧ c ≠ ' ' ∧ c ≠ '#'
  last : cs.getLast? ≠ some ' '
  colons : followed (· == ':') (fun c => isGap c || isBreak c) (cs ++ ['\n']) = false
  hashes : followed (fun c => isGap c || isBreak c) (· == '#') cs = false

/-- What stands behind a space is such a line too. -/
theorem PlainText.behind {front cs : List Char} {c : Char} (h : PlainText (front ++ ' ' :: c :: cs))
    (word : c ≠ ' ') : PlainText (c :: cs) := by
  constructor
  · exact fun d hd => h.chars d (List.mem_append_right _ (List.mem_cons_of_mem _ hd))
  · have notHash := followed_eq_false.mp h.hashes front ' ' c cs rfl rfl
    exact ⟨c, cs, rfl, word, beq_eq_false_iff_ne.mp notHash⟩
  · simpa [List.getLast?_append] using h.last
  · have colons := h.colons
    rw [List.append_assoc] at colons
    exact followed_tail (followed_suffix colons)
  · exact followed_tail (followed_suffix h.hashes)

/-- The first word, and the line behind the spaces after it. -/
theorem PlainText.split {cs : List Char} (h : PlainText cs) :
    ∃ w rest, cs = w ++ rest ∧ w ≠ [] ∧ (∀ c ∈ w, IsSolid c) ∧
      (rest = [] ∨ ∃ s ds, rest = ' ' :: s ++ ds ∧ (∀ c ∈ s, c = ' ') ∧ PlainText ds) := by
  obtain ⟨w, rest, rfl, word, after⟩ := exists_run (· != ' ') cs
  have solid : ∀ c ∈ w, IsSolid c := fun c hc =>
    (h.chars c (List.mem_append_left _ hc)).resolve_left (bne_iff_ne.mp (word c hc))
  refine ⟨w, rest, rfl, ?_, solid, ?_⟩
  · rintro rfl
    obtain ⟨c, cs, rfl, notSpace, _⟩ := h.first
    exact notSpace (bne_eq_false_iff_eq.mp (after c rfl))
  · cases rest with
    | nil => exact .inl rfl
    | cons x rest =>
        obtain rfl : x = ' ' := bne_eq_false_iff_eq.mp (after x rfl)
        obtain ⟨s, ds, rfl, spaces, next⟩ := exists_run (· == ' ') rest
        have spaces : ∀ c ∈ s, c = ' ' := fun c hc => beq_iff_eq.mp (spaces c hc)
        have same : ' ' :: s = List.replicate s.length ' ' ++ [' '] := by
          rw [← List.replicate_succ']
          exact List.eq_replicate_iff.mpr ⟨rfl, List.forall_mem_cons.mpr ⟨rfl, spaces⟩⟩
        refine .inr ⟨s, ds, rfl, spaces, ?_⟩
        rw [← List.cons_append, same, List.append_assoc, ← List.append_assoc] at h
        cases ds with
        | nil => exact absurd (by simp) h.last
        | cons d ds => exact h.behind (beq_eq_false_iff_ne.mp (next d rfl))

theorem PlainText.stops {cs : List Char} (h : PlainText cs) (rest : List Char) :
    Stops (cs ++ rest) := by
  obtain ⟨c, cs, rfl, notSpace, _⟩ := h.first
  exact stops_cons ((h.chars c List.mem_cons_self).resolve_left notSpace)

section Scalar

variable {w cs ds back rest : List Char} {gap : Gap} {fuel i l k : Nat}

/-- One word, and the gap behind it. -/
theorem readPlainFrom_step {x : Char} (nonempty : w ≠ []) (solid : ∀ c ∈ w, IsSolid c)
    (word : w.head? ≠ some '#') (inner : 0 < k) (ends : endsWord (some x) = true)
    (colons : followed (· == ':') (fun c => isGap c || isBreak c) (w ++ [x]) = false) :
    readPlainFrom false 1 (fuel + 1) back gap ⟨w ++ x :: ds, i, l, k⟩ =
      (do
        let (after, c) ← Gap.start.read 1 (ds.length + 1) ⟨x :: ds, i + w.length, l, k + w.length⟩
        if c.column < 1 then return (back.reverse ++ (gap.chars ++ w), after.broken, c)
        readPlainFrom false 1 fuel (w.reverse ++ (gap.chars.reverse ++ back)) after c) := by
  have hash : (⟨w ++ x :: ds, i, l, k⟩ : Cursor).stands '#' = false := by
    obtain ⟨c, w, rfl⟩ := List.exists_cons_of_ne_nil nonempty
    simpa using word
  have enough : w.length < (w ++ x :: ds).length := by
    simp
  rw [readPlainFrom, Cursor.standsDocumentMark_of_pos inner, hash]
  simp only [Bool.or_self, Bool.false_eq_true, if_false,
    readPlainWord_word solid ends colons enough]
  simp [bind, Except.bind, nonempty]

section Step

variable (nonempty : w ≠ []) (solid : ∀ c ∈ w, IsSolid c) (word : w.head? ≠ some '#')
  (inner : 0 < k)
include nonempty solid word inner

/-- The last word of a line. -/
theorem readPlainFrom_last (stops : Stops rest)
    (colons : followed (· == ':') (fun c => isGap c || isBreak c) (w ++ ['\n']) = false) :
    readPlainFrom false 1 (fuel + 1) back gap ⟨w ++ '\n' :: rest, i, l, k⟩ =
      .ok (back.reverse ++ (gap.chars ++ w), true, ⟨rest, i + w.length + 1, l + 1, 0⟩) := by
  obtain ⟨g, broken, read⟩ := @Gap.read_newline 1 rest.length (i + w.length) l (k + w.length) rest
    stops
  rw [readPlainFrom_step nonempty solid word inner rfl colons, read]
  simp [bind, Except.bind, broken, pure, Except.pure]

/-- A word with spaces behind it. -/
theorem readPlainFrom_spaces {s : List Char} (spaces : ∀ c ∈ s, c = ' ') (stops : Stops rest)
    (colons : followed (· == ':') (fun c => isGap c || isBreak c) (w ++ [' ']) = false) :
    readPlainFrom false 1 (fuel + 1) back gap ⟨w ++ ' ' :: (s ++ rest), i, l, k⟩ =
      readPlainFrom false 1 fuel (w.reverse ++ (gap.chars.reverse ++ back))
        ⟨' ' :: s, false, [], []⟩
        ⟨rest, i + w.length + (s.length + 1), l, k + w.length + (s.length + 1)⟩ := by
  have read := @Gap.read_spaces 1 ((s ++ rest).length + 1) (i + w.length) l (k + w.length) .start
    (' ' :: s) rest stops (List.forall_mem_cons.mpr ⟨rfl, spaces⟩) (by simp) rfl
  have inside : ¬k + w.length + (s.length + 1) < 1 := by omega
  rw [List.cons_append] at read
  rw [readPlainFrom_step nonempty solid word inner rfl colons, read]
  simp only [bind, Except.bind, Gap.start, List.nil_append, List.length_cons, if_neg inside]

end Step

/-- A line of words is read up to its end, which is passed over. -/
theorem readPlainFrom_text (n : Nat) (short : cs.length ≤ n) (h : PlainText cs) (inner : 0 < k)
    (stops : Stops rest) (lasts : cs.length < fuel) :
    readPlainFrom false 1 fuel back gap ⟨cs ++ '\n' :: rest, i, l, k⟩ =
      .ok (back.reverse ++ (gap.chars ++ cs), true, ⟨rest, i + cs.length + 1, l + 1, 0⟩) := by
  -- on the length of the line, since a whole word is read at a time
  induction n generalizing cs back gap fuel i k with
  | zero =>
      obtain ⟨c, cs, rfl, _⟩ := h.first
      exact absurd short (Nat.not_succ_le_zero _)
  | succ n ih =>
      obtain ⟨fuel, rfl⟩ := Nat.exists_eq_add_one.mpr (Nat.zero_lt_of_lt lasts)
      obtain ⟨x, xs, begins, _, notHash⟩ := h.first
      obtain ⟨w, r, rfl, nonempty, solid, behind⟩ := h.split
      have word : w.head? ≠ some '#' := by
        obtain ⟨c, w, rfl⟩ := List.exists_cons_of_ne_nil nonempty
        rw [List.head?_cons, (List.cons.inj begins).1]
        exact mt Option.some.inj notHash
      have colons := h.colons
      rcases behind with rfl | ⟨s, ds, rfl, spaces, later⟩
      · rw [List.append_nil] at colons ⊢
        exact readPlainFrom_last nonempty solid word inner stops colons
      · have layout : w ++ (' ' :: s ++ ds) ++ ['\n'] = w ++ [' '] ++ (s ++ ds ++ ['\n']) := by
          simp
        rw [layout] at colons
        have layout : w ++ (' ' :: s ++ ds) ++ '\n' :: rest =
            w ++ ' ' :: (s ++ (ds ++ '\n' :: rest)) := by simp
        have tail := @ih ds (w.reverse ++ (gap.chars.reverse ++ back)) ⟨' ' :: s, false, [], []⟩
          fuel (i + w.length + (s.length + 1)) (k + w.length + (s.length + 1))
        simp only [List.length_append, List.length_cons] at short lasts
        rw [layout, readPlainFrom_spaces nonempty solid word inner spaces (later.stops _)
          (followed_front colons), tail (by omega) later (by omega) (by omega)]
        simp only [List.reverse_append, List.reverse_reverse, Gap.chars, Bool.not_false, if_true,
          List.append_assoc, List.length_append, List.length_cons, List.cons_append]
        congr 4
        omega

theorem readPlain_text (h : PlainText cs) (inner : 0 < k) (stops : Stops rest) :
    readPlain false 0 ⟨cs ++ '\n' :: rest, i, l, k⟩ =
      .ok (String.ofList cs, true, ⟨rest, i + cs.length + 1, l + 1, 0⟩) := by
  have enough : cs.length < (cs ++ '\n' :: rest).length + 1 := by
    rw [List.length_append]
    omega
  have read := @readPlainFrom_text cs [] rest .start _ i l k cs.length (Nat.le_refl _) h inner
    stops enough
  rw [readPlain, show ((0 : Int) + 1).toNat = 1 from rfl, read]
  rfl

/-- A name at the beginning of a line, with a colon behind it. -/
structure IsName (w : List Char) : Prop where
  solid : ∀ c ∈ w, IsSolid c
  apart : ':' ∉ w
  first : ∃ c rest, w = c :: rest ∧ isIndicator c = false ∧ c ≠ '.' ∧ c ≠ '\ufeff'

theorem readPlain_name {x : Char} {parent : Int} (h : IsName w) (ends : endsWord (some x) = true) :
    readPlain false parent ⟨w ++ ':' :: x :: ds, i, l, 0⟩ =
      .ok (String.ofList w, false, ⟨':' :: x :: ds, i + w.length, l, w.length⟩) := by
  have enough : w.length < (w ++ ':' :: x :: ds).length := by simp
  have read := @readPlainWord_key w [] ds x _ i l 0 h.solid h.apart ends enough
  obtain ⟨c, rest, same, free, dot, _⟩ := h.first
  obtain ⟨hash, dash⟩ : c ≠ '#' ∧ c ≠ '-' := by
    constructor <;> (rintro rfl; cases free)
  have mark : (⟨w ++ ':' :: x :: ds, i, l, 0⟩ : Cursor).standsDocumentMark = false := by
    simp [same, Cursor.standsDocumentMark, Cursor.standsMark, dash, dot]
  have comment : (⟨w ++ ':' :: x :: ds, i, l, 0⟩ : Cursor).stands '#' = false := by
    simp [same, hash]
  have nonempty : w ≠ [] := same ▸ List.cons_ne_nil c rest
  rw [readPlain, readPlainFrom, mark, comment]
  simp only [Bool.or_self, Bool.false_eq_true, if_false, read]
  simp [bind, Except.bind, pure, Except.pure, Gap.start, Gap.chars, nonempty]

end Scalar

/-! What is written plain. -/

theorem plainText_of_suits {cs : List Char} (nonempty : cs ≠ []) (suits : suitsPlain cs = true) :
    PlainText cs := by
  simp only [suitsPlain, Bool.and_eq_true, Bool.not_eq_true', needsEscapes, Bool.or_eq_false_iff,
    breaksPlain, isEdge] at suits
  obtain ⟨⟨⟨⟨begins, ⟨colons, last⟩, hashes⟩, head, edge⟩, line⟩, _, visible⟩ := suits
  obtain ⟨c, rest, rfl⟩ := List.exists_cons_of_ne_nil nonempty
  simp only [beginsPlain, Bool.and_eq_true, Bool.not_eq_true'] at begins
  obtain ⟨⟨_, indicator⟩, sign⟩ := begins
  constructor
  · intro d hd
    have shown := List.all_eq_true.mp (Bool.not_eq_eq_eq_not.mp visible) d hd
    exact solid_of_visible shown (Bool.not_eq_true _ ▸ List.any_eq_false.mp line d hd)
  · refine ⟨c, rest, rfl, ?_, ?_⟩
    · rintro rfl
      cases head
    · rintro rfl
      cases indicator
  · intro space
    rw [space] at edge
    cases edge
  · apply followed_concat colons
    intro x found
    refine beq_false_of_ne ?_
    rintro rfl
    rw [found] at last
    cases rest with
    | nil =>
        obtain rfl : c = ':' := by simpa using found
        cases sign
    | cons d rest => simp at last
  · exact hashes

end AssessmentPlans.Yaml
