/-! Pieces of text: what stands between separators, and what is left without the white space
around it. White space are the characters with the property White_Space, and an identifier counts
as missing when it is blank. -/
namespace AssessmentPlans.Text

/-- The pieces between the separators; always one more than there are of these. -/
def splitOn (separator : Char) : List Char → List (List Char)
  | [] => [[]]
  | c :: cs =>
    if c = separator then [] :: splitOn separator cs
    else match splitOn separator cs with
      | [] => [[c]]
      | piece :: pieces => (c :: piece) :: pieces

theorem splitOn_ne_nil (separator : Char) (cs : List Char) : splitOn separator cs ≠ [] := by
  induction cs with
  | nil => simp [splitOn]
  | cons c cs ih =>
    unfold splitOn
    split
    · simp
    · split <;> simp

def split (separator : Char) (s : String) : List String :=
  (splitOn separator s.toList).map String.ofList

/-- The characters with the property White_Space. -/
def isBlank (c : Char) : Bool :=
  let n := c.toNat
  (9 ≤ n && n ≤ 13) || n == 0x20 || n == 0x85 || n == 0xA0 || n == 0x1680 ||
    (0x2000 ≤ n && n ≤ 0x200A) || n == 0x2028 || n == 0x2029 || n == 0x202F ||
    n == 0x205F || n == 0x3000

/-- Text with nothing but white space in it; the empty text is one. -/
def Blank (s : String) : Prop := ∀ c ∈ s.toList, isBlank c = true

instance (s : String) : Decidable (Blank s) :=
  List.decidableBAll (fun c => isBlank c = true) s.toList

def trimLeft (cs : List Char) : List Char := cs.dropWhile isBlank

def trimRight (cs : List Char) : List Char := (cs.reverse.dropWhile isBlank).reverse

/-- Drops the white space at both ends. -/
def trim (s : String) : String := String.ofList (trimRight (trimLeft s.toList))

theorem trimLeft_eq_nil {cs : List Char} :
    trimLeft cs = [] ↔ ∀ c ∈ cs, isBlank c = true := by
  induction cs with
  | nil => exact iff_of_true rfl (List.forall_mem_nil _)
  | cons c cs ih =>
      rw [trimLeft] at ih ⊢
      by_cases h : isBlank c = true
      · simp only [List.dropWhile_cons, h, if_true, List.forall_mem_cons, true_and, ih]
      · simp [h]

theorem trimLeft_trimLeft (cs : List Char) : trimLeft (trimLeft cs) = trimLeft cs := by
  induction cs with
  | nil => rfl
  | cons c cs ih =>
      by_cases h : isBlank c = true
      · simpa only [trimLeft, List.dropWhile_cons, h, if_true] using ih
      · simp [trimLeft, h]

theorem trimRight_eq_nil {cs : List Char} :
    trimRight cs = [] ↔ ∀ c ∈ cs, isBlank c = true := by
  rw [trimRight, List.reverse_eq_nil_iff, ← trimLeft, trimLeft_eq_nil]
  simp only [List.mem_reverse]

/-- Nothing is left of blank text, and of no other. -/
theorem trim_eq_empty {s : String} : trim s = "" ↔ Blank s := by
  rw [trim, String.ofList_eq_empty_iff, trimRight_eq_nil, ← trimLeft_eq_nil, trimLeft_trimLeft,
    trimLeft_eq_nil]
  exact Iff.rfl

end AssessmentPlans.Text
