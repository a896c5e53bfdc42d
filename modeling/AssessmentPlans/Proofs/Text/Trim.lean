import AssessmentPlans.Text.Pieces
import Mathlib.Data.List.Basic

/-! White space around a text, and what trimming leaves of it. -/
namespace AssessmentPlans.Text

theorem trimLeft_cons {c : Char} {cs : List Char} (h : isBlank c = false) :
    trimLeft (c :: cs) = c :: cs := by
  rw [trimLeft, List.dropWhile_cons, h]
  rfl

theorem trimRight_cons {c : Char} {cs : List Char} (h : isBlank c = false) :
    trimRight (c :: cs) = c :: trimRight cs := by
  rw [trimRight, List.reverse_cons, List.dropWhile_append]
  split
  · next gone =>
    rw [List.dropWhile_cons, h, trimRight, List.isEmpty_iff.mp gone]
    rfl
  · rw [List.reverse_append]
    rfl

theorem trimRight_trimRight (cs : List Char) : trimRight (trimRight cs) = trimRight cs := by
  rw [trimRight, trimRight, List.reverse_reverse]
  exact congrArg List.reverse (trimLeft_trimLeft cs.reverse)

/-- What is left begins with no white space. -/
theorem trimLeft_eq_nil_or_cons (cs : List Char) :
    trimLeft cs = [] ∨ ∃ c rest, trimLeft cs = c :: rest ∧ isBlank c = false := by
  induction cs with
  | nil => exact .inl rfl
  | cons c cs ih =>
      by_cases h : isBlank c = true
      · simpa only [trimLeft, List.dropWhile_cons, h, if_true] using ih
      · have solid := Bool.eq_false_iff.mpr h
        exact .inr ⟨c, cs, trimLeft_cons solid, solid⟩

theorem trimLeft_trimRight_trimLeft (cs : List Char) :
    trimLeft (trimRight (trimLeft cs)) = trimRight (trimLeft cs) := by
  rcases trimLeft_eq_nil_or_cons cs with gone | ⟨c, rest, left, solid⟩
  · rw [gone]
    rfl
  · rw [left, trimRight_cons solid, trimLeft_cons solid]

theorem trim_trim (s : String) : trim (trim s) = trim s := by
  rw [trim, trim, String.toList_ofList, trimLeft_trimRight_trimLeft, trimRight_trimRight]

theorem mem_of_mem_trim {c : Char} {s : String} (h : c ∈ (trim s).toList) : c ∈ s.toList := by
  rw [trim, String.toList_ofList, trimRight, List.mem_reverse] at h
  have left := List.mem_reverse.mp ((List.dropWhile_sublist _).subset h)
  exact (List.dropWhile_sublist _).subset left

/-- White space around a text is trimmed with that of the text. -/
theorem trim_padded {front s back : String} (before : Blank front) (after : Blank back) :
    trim (front ++ s ++ back) = trim s := by
  have left : trimLeft (front ++ s ++ back).toList = trimLeft (s.toList ++ back.toList) := by
    rw [String.toList_append, String.toList_append, List.append_assoc]
    exact List.dropWhile_append_of_pos before
  have right : ∀ cs, trimRight (cs ++ back.toList) = trimRight cs := by
    intro cs
    rw [trimRight, List.reverse_append, List.dropWhile_append_of_pos]
    · rfl
    · exact fun c member => after c (List.mem_reverse.mp member)
  rw [trim, trim, left, trimLeft, List.dropWhile_append]
  split
  · next gone =>
    have all : List.dropWhile isBlank back.toList = [] := trimLeft_eq_nil.mpr after
    rw [trimLeft, List.isEmpty_iff.mp gone, all]
  · exact congrArg String.ofList (right _)

end AssessmentPlans.Text
