import AssessmentPlans.Json.Printer
import AssessmentPlans.Json.Reader

/-! Quoted texts are read back as they are written, whatever characters they have. -/
namespace AssessmentPlans.Json

/-- The piece that a written character falls into: a code unit if it is escaped by its
number. -/
def Piece.ofWritten (c : Char) : Piece :=
  if c.toNat < 0x20 ∧ c ∉ ['\x08', '\x0c', '\n', '\r', '\t'] then .unit c.toNat else .char c

theorem hex4?_hexPair (n : Nat) (h : n < 0x20) :
    hex4? '0' '0' (Nat.digitChar (n / 16)) (Nat.digitChar (n % 16)) = some n := by
  revert n
  decide

/-- A character that needs no escape is a piece of its own. -/
theorem readPieces_plain {c : Char} (rest : List Char) (quote : c ≠ '"') (backslash : c ≠ '\\')
    (high : ¬c.toNat < 0x20) :
    readPieces (c :: rest) = (.char c :: (readPieces rest).1, (readPieces rest).2) := by
  rw [readPieces, if_neg high]
  all_goals simp [quote, backslash]

theorem readPieces_escapeChar (c : Char) (rest : List Char) :
    readPieces (escapeChar c ++ rest) =
      (Piece.ofWritten c :: (readPieces rest).1, (readPieces rest).2) := by
  unfold escapeChar
  split
  · next h => subst h; rfl
  split
  · next h => subst h; rfl
  split
  · next h => subst h; rfl
  split
  · next h => subst h; rfl
  split
  · next h => subst h; rfl
  split
  · next h => subst h; rfl
  split
  · next h => subst h; rfl
  next quote backslash b f n r t =>
  split
  · next low =>
    have unit : Piece.ofWritten c = .unit c.toNat := by
      simp [Piece.ofWritten, low, b, f, n, r, t]
    simp only [hexPair, List.cons_append, List.nil_append, readPieces, hex4?_hexPair _ low, unit]
  · next high =>
    have char : Piece.ofWritten c = .char c := by
      simp [Piece.ofWritten, high]
    rw [List.cons_append, List.nil_append, readPieces_plain rest quote backslash high, char]

theorem readPieces_escaped (cs rest : List Char) :
    readPieces (cs.flatMap escapeChar ++ '"' :: rest) = (cs.map Piece.ofWritten, .ok rest) := by
  induction cs with
  | nil => rfl
  | cons c cs ih =>
      rw [List.flatMap_cons, List.append_assoc, readPieces_escapeChar, ih]
      rfl

/-- The number of a control character is no surrogate. -/
theorem joinPieces_unit {closed : Bool} {n : Nat} (control : n < 0x20) (ps : List Piece) :
    joinPieces closed (.unit n :: ps) = (joinPieces closed ps).map (Char.ofNat n :: ·) := by
  have high : isHighSurrogate n = false := by
    simp only [isHighSurrogate, Bool.and_eq_false_iff, decide_eq_false_iff_not]
    omega
  have low : isLowSurrogate n = false := by
    simp only [isLowSurrogate, Bool.and_eq_false_iff, decide_eq_false_iff_not]
    omega
  rw [joinPieces.eq_def]
  simp only [high, low, Bool.false_eq_true, if_false]

theorem joinPieces_ofWritten (closed : Bool) (cs : List Char) :
    joinPieces closed (cs.map Piece.ofWritten) = .ok cs := by
  induction cs with
  | nil => rfl
  | cons c cs ih =>
      rw [List.map_cons, Piece.ofWritten]
      split
      · next h => rw [joinPieces_unit h.1, ih, Except.map, Char.ofNat_toNat]
      · rw [joinPieces, ih, Except.map]

theorem readText_textChars (s : String) (rest : List Char) :
    readText (s.toList.flatMap escapeChar ++ '"' :: rest) = .ok (.ok s, rest) := by
  simp only [readText, readPieces_escaped, joinPieces_ofWritten, Except.map, String.ofList_toList]

end AssessmentPlans.Json
