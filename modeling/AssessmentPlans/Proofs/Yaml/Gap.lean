import AssessmentPlans.Proofs.Yaml.Characters
import AssessmentPlans.Yaml.Gap

/-! Places in a text that is known, and the gaps between the words of a scalar. -/
namespace AssessmentPlans.Yaml

namespace Cursor

variable {cs : List Char} {i l k n : Nat} {x : Char}

@[simp] theorem peek_mk : (⟨cs, i, l, k⟩ : Cursor).peek = cs.head? := rfl

@[simp] theorem ahead_mk : (⟨cs, i, l, k⟩ : Cursor).ahead n = cs[n]? := rfl

@[simp] theorem skip_mk : (⟨cs, i, l, k⟩ : Cursor).skip n = ⟨cs.drop n, i + n, l, k + n⟩ := rfl

@[simp] theorem stands_mk : (⟨cs, i, l, k⟩ : Cursor).stands x = (cs.head? == some x) := rfl

theorem readBreak_newline :
    (⟨'\n' :: cs, i, l, k⟩ : Cursor).readBreak = (['\n'], ⟨cs, i + 1, l + 1, 0⟩) := rfl

theorem readBreak_separator (h : IsSeparator x) :
    (⟨x :: cs, i, l, k⟩ : Cursor).readBreak = ([x], ⟨cs, i + 1, l + 1, 0⟩) := by
  rcases h with rfl | rfl <;> rfl

/-- In the middle of a line no document mark stands. -/
theorem standsDocumentMark_of_pos (h : 0 < k) :
    (⟨cs, i, l, k⟩ : Cursor).standsDocumentMark = false := by
  have inside : (k == 0) = false := beq_false_of_ne (Nat.ne_of_gt h)
  simp [standsDocumentMark, standsMark, inside]

end Cursor

namespace Gap

variable {margin fuel i l k : Nat} {g : Gap} {s cs : List Char}

theorem read_stops (stops : Stops cs) :
    Gap.read margin fuel g ⟨cs, i, l, k⟩ = .ok (g, ⟨cs, i, l, k⟩) := by
  cases fuel with
  | zero => rfl
  | succ fuel =>
      cases cs with
      | nil => rfl
      | cons x cs =>
          obtain ⟨gap, brk⟩ := stops x rfl
          simp [Gap.read, gap, brk]

/-- Spaces within a line are kept. -/
theorem read_spaces (stops : Stops cs) (spaces : ∀ c ∈ s, c = ' ') (lasts : s.length ≤ fuel)
    (unbroken : g.broken = false) : Gap.read margin fuel g ⟨s ++ cs, i, l, k⟩ =
      .ok ({ g with spaces := g.spaces ++ s }, ⟨cs, i + s.length, l, k + s.length⟩) := by
  induction s generalizing fuel g i k with
  | nil => simp [read_stops stops]
  | cons x s ih =>
      obtain ⟨rfl, later⟩ := List.forall_mem_cons.mp spaces
      obtain ⟨fuel, rfl⟩ := Nat.exists_eq_add_one.mpr (Nat.zero_lt_of_lt lasts)
      rw [Gap.read]
      simp [isGap, unbroken, ih later (Nat.le_of_succ_le_succ lasts), Nat.add_comm 1, Nat.add_assoc]

/-- Spaces at the beginning of a further line are dropped. -/
theorem read_indentation (stops : Stops cs) (spaces : ∀ c ∈ s, c = ' ') (lasts : s.length ≤ fuel)
    (broken : g.broken = true) : Gap.read margin fuel g ⟨s ++ cs, i, l, k⟩ =
      .ok (g, ⟨cs, i + s.length, l, k + s.length⟩) := by
  induction s generalizing fuel i k with
  | nil => exact read_stops stops
  | cons x s ih =>
      obtain ⟨rfl, later⟩ := List.forall_mem_cons.mp spaces
      obtain ⟨fuel, rfl⟩ := Nat.exists_eq_add_one.mpr (Nat.zero_lt_of_lt lasts)
      rw [Gap.read]
      simp [isGap, broken, ih later (Nat.le_of_succ_le_succ lasts), Nat.add_comm 1, Nat.add_assoc]

/-- Further line breaks, and the indentation of the line after them. -/
theorem read_further {bs : List Char} (stops : Stops cs) (spaces : ∀ c ∈ s, c = ' ')
    (breaks : ∀ c ∈ bs, IsSeparator c) (lasts : (bs ++ s).length ≤ fuel)
    (broken : g.broken = true) : ∃ i' k', s.length ≤ k' ∧
      Gap.read margin fuel g ⟨bs ++ (s ++ cs), i, l, k⟩ =
        .ok ({ g with later := g.later ++ bs }, ⟨cs, i', l + bs.length, k'⟩) := by
  induction bs generalizing fuel g i l k with
  | nil =>
      refine ⟨i + s.length, k + s.length, Nat.le_add_left _ _, ?_⟩
      simp [read_indentation stops spaces lasts broken]
  | cons b bs ih =>
      obtain ⟨first, later⟩ := List.forall_mem_cons.mp breaks
      obtain ⟨gap, brk⟩ := first.isBreak
      obtain ⟨fuel, rfl⟩ := Nat.exists_eq_add_one.mpr (Nat.zero_lt_of_lt lasts)
      have step : Gap.read margin (fuel + 1) g ⟨b :: (bs ++ (s ++ cs)), i, l, k⟩ =
          Gap.read margin fuel { g with later := g.later ++ [b] }
            ⟨bs ++ (s ++ cs), i + 1, l + 1, 0⟩ := by
        rw [Gap.read]
        simp [gap, brk, Cursor.readBreak_separator first, addBreak, broken]
      obtain ⟨i', k', far, read⟩ := @ih fuel (i + 1) (l + 1) 0 { g with later := g.later ++ [b] }
        later (Nat.le_of_succ_le_succ lasts) broken
      refine ⟨i', k', far, ?_⟩
      rw [List.cons_append, step, read]
      simp [Nat.add_comm 1, Nat.add_assoc]

/-- A gap with line breaks that count stands for these breaks. -/
theorem read_separators {b : Char} {bs : List Char} (stops : Stops cs) (spaces : ∀ c ∈ s, c = ' ')
    (breaks : ∀ c ∈ b :: bs, IsSeparator c) (lasts : (b :: bs ++ s).length ≤ fuel) :
    ∃ g i' k', g.chars = b :: bs ∧ s.length ≤ k' ∧
      Gap.read margin fuel .start ⟨b :: (bs ++ (s ++ cs)), i, l, k⟩ =
        .ok (g, ⟨cs, i', l + (bs.length + 1), k'⟩) := by
  obtain ⟨first, later⟩ := List.forall_mem_cons.mp breaks
  obtain ⟨gap, brk⟩ := first.isBreak
  obtain ⟨fuel, rfl⟩ := Nat.exists_eq_add_one.mpr (Nat.zero_lt_of_lt lasts)
  obtain ⟨i', k', far, read⟩ := @read_further margin fuel (i + 1) (l + 1) 0
    ⟨[], true, [b], []⟩ s cs bs stops spaces later (Nat.le_of_succ_le_succ lasts) rfl
  refine ⟨⟨[], true, [b], bs⟩, i', k', ?_, far, ?_⟩
  · have counts : ([b] == ['\n']) = false := by
      rcases first with rfl | rfl <;> rfl
    simp [chars, counts]
  · rw [Gap.read]
    simp [gap, brk, start, Cursor.readBreak_separator first, read, addBreak, Nat.add_comm 1,
      Nat.add_assoc]

/-- The line break behind the last word of a line. -/
theorem read_newline (stops : Stops cs) :
    ∃ g, g.broken = true ∧ Gap.read margin (fuel + 1) .start ⟨'\n' :: cs, i, l, k⟩ =
      .ok (g, ⟨cs, i + 1, l + 1, 0⟩) := by
  refine ⟨⟨[], true, ['\n'], []⟩, rfl, ?_⟩
  rw [Gap.read]
  simp [isGap, isBreak, Cursor.readBreak_newline, read_stops stops, start, addBreak]

end Gap
end AssessmentPlans.Yaml
