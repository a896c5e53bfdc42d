import AssessmentPlans.Proofs.Yaml.Gap
import AssessmentPlans.Yaml.Block

/-! Scalars written as a block of lines are read as what they say. Two spaces stand before
each line that is not empty, and the header tells what becomes of the breaks at the end. -/
namespace AssessmentPlans.Yaml

/-- A break that counts as itself in a block. -/
def IsLineEnd (c : Char) : Prop := c = '\n' ∨ IsSeparator c

theorem IsLineEnd.isBreak {c : Char} (h : IsLineEnd c) : isGap c = false ∧ isBreak c = true := by
  rcases h with rfl | separator
  · exact ⟨rfl, rfl⟩
  · exact separator.isBreak

/-- Where a block goes on after its empty lines: at the margin, or not at all. -/
inductive Resumes : List Char → List Char → Nat → Prop
  | line (x : Char) (cs : List Char) (inside : isBreak x = false) :
      Resumes (indentChars ++ x :: cs) (x :: cs) 2
  | none (cs : List Char) (stops : Stops cs) : Resumes cs cs 0

section Empty

variable {b : Char} {bs cs cs' breaks : List Char} {fuel widest i l k : Nat}

theorem readBreak_lineEnd (h : IsLineEnd b) :
    (⟨b :: cs, i, l, k⟩ : Cursor).readBreak = ([b], ⟨cs, i + 1, l + 1, 0⟩) := by
  rcases h with rfl | separator
  · rfl
  · exact Cursor.readBreak_separator separator

theorem readEmptyLines_none (h : Resumes cs cs' k) :
    readEmptyLines 2 (fuel + 1) widest breaks ⟨cs, i, l, 0⟩ =
      .ok (breaks, max widest k, ⟨cs', i + k, l, k⟩) := by
  rw [readEmptyLines]
  cases h with
  | line x cs inside =>
      simp [indentChars, Cursor.standsBreak, inside]
  | none cs stops =>
      cases cs with
      | nil => simp [Cursor.standsBreak]
      | cons x cs =>
          obtain ⟨gap, brk⟩ := stops x rfl
          simp only [isGap, Bool.or_eq_false_iff, beq_eq_false_iff_ne] at gap
          simp [Cursor.standsBreak, brk, gap]

theorem length_lt_append (cs ds : List Char) : cs.length < (cs ++ ds).length + 1 := by
  rw [List.length_append]
  exact Nat.lt_succ_of_le (Nat.le_add_right _ _)

/-- The breaks of empty lines are collected. -/
theorem readEmptyLines_breaks (ends : ∀ c ∈ bs, IsLineEnd c) (h : Resumes cs cs' k)
    (lasts : bs.length < fuel) : ∃ i' widest',
      readEmptyLines 2 fuel widest breaks ⟨bs ++ cs, i, l, 0⟩ =
        .ok (breaks ++ bs, widest', ⟨cs', i', l + bs.length, k⟩) := by
  induction bs generalizing fuel widest breaks i l with
  | nil =>
      obtain ⟨fuel, rfl⟩ := Nat.exists_eq_add_of_lt lasts
      refine ⟨i + k, max widest k, ?_⟩
      rw [List.nil_append, readEmptyLines_none h]
      simp
  | cons b bs ih =>
      obtain ⟨first, later⟩ := List.forall_mem_cons.mp ends
      obtain ⟨gap, brk⟩ := first.isBreak
      simp only [isGap, Bool.or_eq_false_iff, beq_eq_false_iff_ne] at gap
      cases fuel with
      | zero => exact absurd lasts (Nat.not_lt_zero _)
      | succ fuel =>
          obtain ⟨i', widest', read⟩ := @ih (breaks ++ [b]) fuel widest (i + 1) (l + 1) later
            (Nat.lt_of_succ_lt_succ lasts)
          refine ⟨i', widest', ?_⟩
          rw [readEmptyLines]
          simp [Cursor.standsBreak, brk, gap, readBreak_lineEnd first, read, Nat.add_assoc,
            Nat.add_comm 1]

end Empty

/-! The lines. -/

/-- A line that is not empty. -/
def IsLine (line : List Char) : Prop := line ≠ [] ∧ ∀ c ∈ line, isBreak c = false

theorem IsLine.begins {line : List Char} (h : IsLine line) :
    ∃ x rest, line = x :: rest ∧ isBreak x = false := by
  obtain ⟨x, rest, rfl⟩ := List.exists_cons_of_ne_nil h.1
  exact ⟨x, rest, rfl, h.2 x List.mem_cons_self⟩

/-- The lines of a block from the margin of the first one, as a text and as they are written;
and what becomes of the breaks at their end. -/
inductive Lined : Chomping → List Char → List Char → Prop
  | stop {line} (h : IsLine line) :
      Lined .strip line (line ++ ['\n'])
  | clip {line b} (h : IsLine line) (ends : IsLineEnd b) :
      Lined .clip (line ++ [b]) (line ++ [b])
  | keep {line b bs} (h : IsLine line) (ends : ∀ c ∈ b :: bs, IsLineEnd c) :
      Lined .keep (line ++ b :: bs) (line ++ b :: bs)
  | further {chomping line b bs cs ds} (h : IsLine line) (ends : ∀ c ∈ b :: bs, IsLineEnd c)
      (later : Lined chomping cs ds) :
      Lined chomping (line ++ (b :: bs ++ cs)) (line ++ (b :: bs ++ (indentChars ++ ds)))

section Lines

variable {chomping : Chomping} {cs ds rest back ended empty line : List Char} {more : Bool}
  {fuel i l k : Nat}

theorem Lined.begins (h : Lined chomping cs ds) :
    ∃ x rest, ds = x :: rest ∧ isBreak x = false := by
  cases h with
  | stop here | clip here | keep here | further here =>
      obtain ⟨x, rest, rfl, inside⟩ := here.begins
      exact ⟨x, _, rfl, inside⟩

/-- What a block has behind its last line. -/
def Chomping.tail (ended empty : List Char) : Chomping → List Char
  | .strip => []
  | .clip => ended
  | .keep => ended ++ empty

/-- One line, with the break behind it and the empty lines that follow. -/
theorem readLines_line {b : Char} {bs tail tail' : List Char} (h : IsLine line)
    (ends : ∀ c ∈ b :: bs, IsLineEnd c) (behind : Resumes tail tail' k) : ∃ i' more',
      readLines true chomping 2 (fuel + 1) back ended empty more
          ⟨line ++ b :: (bs ++ tail), i, l, 2⟩ =
        readLines true chomping 2 fuel (line.reverse ++ ((ended ++ empty).reverse ++ back)) [b] bs
          more' ⟨tail', i', l + 1 + bs.length, k⟩ := by
  obtain ⟨filled, inside⟩ := h
  obtain ⟨c, cs, rfl⟩ := List.exists_cons_of_ne_nil filled
  obtain ⟨first, later⟩ := List.forall_mem_cons.mp ends
  have brk := first.isBreak.2
  have taken : ((c :: cs) ++ b :: (bs ++ tail)).takeWhile (fun x => !isBreak x) = c :: cs := by
    rw [List.takeWhile_append_of_pos (by simpa using inside),
      List.takeWhile_cons_of_neg (by simp [brk]), List.append_nil]
  obtain ⟨i', widest, read⟩ := @readEmptyLines_breaks bs tail tail' [] ((bs ++ tail).length + 1) 0
    (i + (c :: cs).length + 1) (l + 1) k later behind (length_lt_append bs tail)
  refine ⟨i', (⟨(c :: cs) ++ b :: (bs ++ tail), i, l, 2⟩ : Cursor).standsGap, ?_⟩
  simp only [List.length_append, List.length_cons, List.nil_append] at read
  simp only [readLines, Cursor.peek_mk, Cursor.span, taken]
  simp [joint, readBreak_lineEnd first, read, bind, Except.bind]

theorem readLines_end :
    readLines true chomping 2 (fuel + 1) back ended empty more ⟨rest, i, l, 0⟩ =
      .ok (back.reverse ++ chomping.tail ended empty, ⟨rest, i, l, 0⟩) := by
  cases chomping <;> simp [readLines, Chomping.tail]

/-- The last line, with all breaks behind it. -/
theorem readLines_last {b : Char} {bs : List Char} (h : IsLine line)
    (ends : ∀ c ∈ b :: bs, IsLineEnd c) (stops : Stops rest)
    (lasts : (line ++ b :: bs).length < fuel) : ∃ i' l',
      readLines true chomping 2 fuel back ended empty more ⟨line ++ b :: bs ++ rest, i, l, 2⟩ =
        .ok (back.reverse ++ (ended ++ (empty ++ (line ++ chomping.tail [b] bs))),
          ⟨rest, i', l', 0⟩) := by
  obtain ⟨fuel, rfl⟩ : ∃ n, fuel = n + 2 := by
    have := List.length_pos_iff.mpr h.1
    simp only [List.length_append, List.length_cons] at lasts
    exact ⟨fuel - 2, by omega⟩
  obtain ⟨i', more', read⟩ := @readLines_line chomping back ended empty line more (fuel + 1) i l 0
    b bs rest rest h ends (.none rest stops)
  refine ⟨i', l + 1 + bs.length, ?_⟩
  have layout : line ++ b :: bs ++ rest = line ++ b :: (bs ++ rest) := by simp
  rw [layout, read, readLines_end]
  simp

theorem Lined.read (h : Lined chomping cs ds) (stops : Stops rest) (lasts : ds.length < fuel) :
    ∃ i' l', readLines true chomping 2 fuel back ended empty more ⟨ds ++ rest, i, l, 2⟩ =
      .ok (back.reverse ++ (ended ++ (empty ++ cs)), ⟨rest, i', l', 0⟩) := by
  induction h generalizing fuel back ended empty more i l with
  | @stop line here =>
      have newline : ∀ c ∈ ['\n'], IsLineEnd c := List.forall_mem_singleton.mpr (.inl rfl)
      have read := @readLines_last .strip rest back ended empty line more fuel i l '\n' [] here
        newline stops lasts
      rwa [Chomping.tail, List.append_nil] at read
  | clip here ends =>
      exact readLines_last here (List.forall_mem_singleton.mpr ends) stops lasts
  | keep here ends => exact readLines_last here ends stops lasts
  | @further chomping line b bs cs ds here ends later ih =>
      obtain ⟨fuel, rfl⟩ : ∃ n, fuel = n + 1 := ⟨fuel - 1, by omega⟩
      have shorter : ds.length < fuel := by
        simp only [List.length_append, List.length_cons] at lasts
        omega
      obtain ⟨x, ds, rfl, solid⟩ := later.begins
      obtain ⟨i₁, more', first⟩ := @readLines_line chomping back ended empty line more fuel i l 2
        b bs (indentChars ++ x :: (ds ++ rest)) (x :: (ds ++ rest)) here ends (.line x _ solid)
      obtain ⟨i', l', read⟩ := @ih (line.reverse ++ ((ended ++ empty).reverse ++ back)) [b] bs more'
        fuel i₁ (l + 1 + bs.length) shorter
      refine ⟨i', l', ?_⟩
      have layout : line ++ (b :: bs ++ (indentChars ++ x :: ds)) ++ rest =
          line ++ b :: (bs ++ (indentChars ++ x :: (ds ++ rest))) := by simp
      rw [layout, first]
      refine Eq.trans read ?_
      simp

end Lines

/-! What is written as a block. -/

/-- What becomes of the breaks at the end of a text, given its last characters first. -/
def chompingFrom : List Char → Chomping
  | [] => .strip
  | [c] => if isBreak c then .keep else .strip
  | c :: d :: _ => if !isBreak c then .strip else if isBreak d then .keep else .clip

def Chomping.chars : Chomping → List Char
  | .strip => ['-']
  | .clip => []
  | .keep => ['+']

theorem literalHeader_eq (cs : List Char) : literalHeader cs =
    '|' :: (if cs.head?.any (fun c => c == ' ' || isBreak c) then ['2'] else []) ++
      (chompingFrom cs.reverse).chars := by
  rw [literalHeader]
  congr 1
  match cs.reverse with
  | [] => rfl
  | [c] => cases brk : isBreak c <;> simp [chompingFrom, brk, Chomping.chars]
  | c :: d :: _ =>
      cases brk : isBreak c <;> cases two : isBreak d <;>
        simp [chompingFrom, brk, two, Chomping.chars]

/-- The break that ends a text without one. -/
def closing (cs : List Char) : List Char := if cs.getLast?.any isBreak then [] else ['\n']

section Written

variable {line bs cs xs : List Char} {b c : Char}

theorem chompingFrom_strip (inside : isBreak c = false) : chompingFrom (c :: cs) = .strip := by
  cases cs <;> simp [chompingFrom, inside]

theorem chompingFrom_append (inside : isBreak c = false) :
    chompingFrom (xs ++ c :: cs) = chompingFrom (xs ++ [c]) := by
  match xs with
  | [] =>
      simp only [List.nil_append, chompingFrom_strip inside]
  | [x] => rfl
  | x :: y :: xs => rfl

theorem IsLine.reverse_begins (h : IsLine line) :
    ∃ x rest, line.reverse = x :: rest ∧ isBreak x = false := by
  have here : IsLine line.reverse :=
    ⟨mt List.reverse_eq_nil_iff.mp h.1, fun c hc => h.2 c (List.mem_reverse.mp hc)⟩
  exact here.begins

theorem chompingFrom_line (h : IsLine line) : chompingFrom line.reverse = .strip := by
  obtain ⟨x, rest, same, inside⟩ := h.reverse_begins
  rw [same, chompingFrom_strip inside]

theorem chompingFrom_clip (h : IsLine line) (brk : isBreak b = true) :
    chompingFrom (line ++ [b]).reverse = .clip := by
  obtain ⟨x, rest, same, inside⟩ := h.reverse_begins
  simp [same, chompingFrom, brk, inside]

theorem chompingFrom_keep {d : Char} (breaks : ∀ c ∈ b :: d :: bs, isBreak c = true) :
    chompingFrom (xs ++ b :: d :: bs).reverse = .keep := by
  have last : ∀ c ∈ (b :: d :: bs).reverse, isBreak c = true :=
    fun c hc => breaks c (List.mem_reverse.mp hc)
  have length : (b :: d :: bs).reverse.length = (b :: d :: bs).length := List.length_reverse
  rw [List.reverse_append]
  match (b :: d :: bs).reverse, last, length with
  | z :: y :: _, last, _ =>
      obtain ⟨first, others⟩ := List.forall_mem_cons.mp last
      simp [chompingFrom, first, others y List.mem_cons_self]
  | [_], _, length => simp at length
  | [], _, length => simp at length

theorem literalRest_line (inside : ∀ c ∈ line, isBreak c = false) :
    literalRest false (line ++ cs) = line ++ literalRest false cs := by
  induction line with
  | nil => rfl
  | cons c line ih =>
      obtain ⟨first, later⟩ := List.forall_mem_cons.mp inside
      simp [literalRest, first, ih later]

theorem literalRest_breaks (breaks : ∀ c ∈ bs, isBreak c = true) :
    literalRest true (bs ++ cs) = bs ++ literalRest true cs := by
  induction bs with
  | nil => rfl
  | cons b bs ih =>
      obtain ⟨first, later⟩ := List.forall_mem_cons.mp breaks
      simp [literalRest, first, ih later]

theorem literalRest_break (brk : isBreak b = true) (broken : Bool) :
    literalRest broken (b :: cs) = b :: literalRest true cs := by
  rw [literalRest, if_pos brk]

theorem literalRest_margin (inside : isBreak c = false) :
    literalRest true (c :: cs) = indentChars ++ literalRest false (c :: cs) := by
  simp [literalRest, inside]

theorem closing_append : closing (xs ++ c :: cs) = closing (c :: cs) := by
  have last := List.getLast?_eq_some_getLast (List.cons_ne_nil c cs)
  rw [closing, List.getLast?_append, closing, last, Option.some_or]

theorem closing_line (h : IsLine line) : closing line = ['\n'] := by
  obtain ⟨x, rest, same, inside⟩ := h.reverse_begins
  rw [closing, List.getLast?_eq_head?_reverse, same]
  simp [inside]

theorem closing_breaks (breaks : ∀ c ∈ b :: bs, isBreak c = true) :
    closing (xs ++ b :: bs) = [] := by
  rw [closing_append, closing, List.getLast?_eq_some_getLast (List.cons_ne_nil b bs)]
  simp only [Option.any_some, breaks _ (List.getLast_mem _), if_true]

/-- How the lines of a text are written from the margin of the first one. -/
theorem lined_of (n : Nat) (short : cs.length < n) (inside : isBreak c = false)
    (ends : ∀ d ∈ cs, isBreak d = true → IsLineEnd d) :
    Lined (chompingFrom (c :: cs).reverse) (c :: cs)
      (literalRest false (c :: cs) ++ closing (c :: cs)) := by
  induction n generalizing c cs with
  | zero => exact absurd short (Nat.not_lt_zero _)
  | succ n ih =>
      obtain ⟨line, rest, rfl, run, behind⟩ := exists_run (!isBreak ·) cs
      have here : IsLine (c :: line) := by
        refine ⟨List.cons_ne_nil c line, List.forall_mem_cons.mpr ⟨inside, fun d hd => ?_⟩⟩
        simpa using run d hd
      rw [← List.cons_append, literalRest_line here.2]
      cases rest with
      | nil =>
          have close := closing_line here
          rw [List.append_nil, chompingFrom_line here, close, literalRest, List.append_nil]
          exact .stop here
      | cons b rest =>
          have brk : isBreak b = true := by simpa using behind b rfl
          obtain ⟨bs, rest, rfl, breaks, after⟩ := exists_run isBreak rest
          have breaks' : ∀ d ∈ b :: bs, isBreak d = true := List.forall_mem_cons.mpr ⟨brk, breaks⟩
          have all : ∀ d ∈ b :: bs, IsLineEnd d := by
            intro d hd
            have member : d ∈ line ++ b :: (bs ++ rest) := by
              rcases List.mem_cons.mp hd with rfl | hd <;> simp [*]
            exact ends d member (breaks' d hd)
          rw [literalRest_break brk, literalRest_breaks breaks]
          cases rest with
          | nil =>
              have close : closing (c :: line ++ b :: bs) = [] := closing_breaks breaks'
              simp only [List.append_nil, literalRest]
              rw [close, List.append_nil]
              cases bs with
              | nil =>
                  rw [chompingFrom_clip here brk]
                  exact .clip here (all b List.mem_cons_self)
              | cons d bs =>
                  rw [chompingFrom_keep breaks']
                  exact .keep here all
          | cons d ds =>
              have margin : isBreak d = false := after d rfl
              have later := @ih ds d (by simp at short; omega) margin fun x hx =>
                ends x (by simp [hx])
              have layout :
                  c :: line ++ b :: (bs ++ d :: ds) = (c :: line ++ b :: bs) ++ d :: ds := by simp
              rw [literalRest_margin margin]
              have reversed : chompingFrom (c :: line ++ b :: (bs ++ d :: ds)).reverse =
                  chompingFrom (d :: ds).reverse := by
                rw [layout, List.reverse_append, List.reverse_cons, List.append_assoc,
                  List.singleton_append, chompingFrom_append margin]
              have close : closing (c :: line ++ b :: (bs ++ d :: ds)) = closing (d :: ds) := by
                rw [layout, closing_append]
              rw [reversed, close]
              have whole := Lined.further here all later
              simpa using whole

end Written

section Header

variable {chomping : Chomping} {rest : List Char} {i l k : Nat}

theorem BlockHeader.read_given : ∃ i',
    BlockHeader.read ⟨'2' :: chomping.chars ++ '\n' :: rest, i, l, k⟩ =
      .ok (⟨chomping, some 2⟩, ⟨rest, i', l + 1, 0⟩) := by
  cases chomping <;> exact ⟨_, rfl⟩

theorem BlockHeader.read_shown : ∃ i',
    BlockHeader.read ⟨chomping.chars ++ '\n' :: rest, i, l, k⟩ =
      .ok (⟨chomping, none⟩, ⟨rest, i', l + 1, 0⟩) := by
  cases chomping <;> exact ⟨_, rfl⟩

end Header

section Whole

variable {bs cs rest : List Char} {c : Char} {i l k : Nat}

/-- A first line without further indentation shows the margin. -/
theorem readEmptyLines_shown {fuel : Nat} (solid : IsSolid c) :
    readEmptyLines 0 (fuel + 1) 0 [] ⟨indentChars ++ c :: cs, i, l, 0⟩ =
      .ok ([], 2, ⟨c :: cs, i + 2, l, 2⟩) := by
  obtain ⟨gap, brk⟩ := solid
  simp only [isGap, Bool.or_eq_false_iff, beq_eq_false_iff_ne] at gap
  rw [readEmptyLines]
  simp [indentChars, Cursor.standsBreak, gap, brk]

theorem chompingFrom_breaks (breaks : ∀ c ∈ bs, isBreak c = true) (filled : bs ≠ []) :
    chompingFrom bs.reverse = .keep := by
  obtain ⟨b, bs, rfl⟩ := List.exists_cons_of_ne_nil filled
  cases bs with
  | nil => simp [chompingFrom, breaks b List.mem_cons_self]
  | cons d bs =>
      have keep : chompingFrom ([] ++ b :: d :: bs).reverse = .keep := chompingFrom_keep breaks
      exact keep

/-- Reading a block within a parent at the first column, part by part. -/
theorem readBlock_parts {chomping : Chomping} {indentation : Option Nat} {widest : Nat}
    {empty : List Char} {c c₁ c₂ c₃ : Cursor}
    (header : BlockHeader.read (c.skip 1) = .ok (⟨chomping, indentation⟩, c₁))
    (before : readEmptyLines (indentation.getD 0) (c₁.rest.length + 1) 0 [] c₁ =
      .ok (empty, widest, c₂))
    (margin : indentation = some 2 ∨ indentation = none ∧ widest = 2)
    (lines : readLines true chomping 2 (c₂.rest.length + 1) [] [] empty false c₂ = .ok (cs, c₃)) :
    readBlock true 0 c = .ok (String.ofList cs, c₃) := by
  rw [readBlock, header]
  rcases margin with rfl | ⟨rfl, rfl⟩
  · rw [Option.getD_some] at before
    simp [bind, Except.bind, before, lines, pure, Except.pure]
  · rw [Option.getD_none] at before
    simp [bind, Except.bind, before, lines, pure, Except.pure]

/-- A block of nothing but breaks. -/
theorem readBlock_breaks (ends : ∀ c ∈ bs, IsLineEnd c) (filled : bs ≠ []) (stops : Stops rest) :
    ∃ i' l', readBlock true 0 ⟨literalHeader bs ++ '\n' :: (bs ++ rest), i, l, k⟩ =
      .ok (String.ofList bs, ⟨rest, i', l', 0⟩) := by
  have breaks : ∀ c ∈ bs, isBreak c = true := fun c hc => (ends c hc).isBreak.2
  have first : bs.head?.any (fun c => c == ' ' || isBreak c) = true := by
    obtain ⟨b, bs, rfl⟩ := List.exists_cons_of_ne_nil filled
    simp [breaks b List.mem_cons_self]
  obtain ⟨i₁, header⟩ := @BlockHeader.read_given .keep (bs ++ rest) (i + 1) l (k + 1)
  obtain ⟨i₂, widest, empty⟩ := @readEmptyLines_breaks bs rest rest [] ((bs ++ rest).length + 1) 0
    i₁ (l + 1) 0 ends (.none rest stops) (length_lt_append bs rest)
  refine ⟨i₂, l + 1 + bs.length, ?_⟩
  rw [literalHeader_eq, chompingFrom_breaks breaks filled, if_pos first]
  exact readBlock_parts header empty (.inl rfl) readLines_end

/-- A block with lines that are not empty. -/
theorem readBlock_lines (ends : ∀ d ∈ bs ++ c :: cs, isBreak d = true → IsLineEnd d)
    (breaks : ∀ d ∈ bs, isBreak d = true) (inside : isBreak c = false)
    (visible : isVisible c = true) (stops : Stops rest) : ∃ i' l',
      readBlock true 0 ⟨literalHeader (bs ++ c :: cs) ++ '\n' :: (bs ++ (indentChars ++
          (literalRest false (c :: cs) ++ closing (c :: cs) ++ rest))), i, l, k⟩ =
        .ok (String.ofList (bs ++ c :: cs), ⟨rest, i', l', 0⟩) := by
  have lined := @lined_of cs c (cs.length + 1) (Nat.lt_succ_self _) inside fun d hd =>
    ends d (by simp [hd])
  have begins : literalRest false (c :: cs) ++ closing (c :: cs) =
      c :: (literalRest false cs ++ closing (c :: cs)) := by
    simp [literalRest, inside]
  have same : chompingFrom (bs ++ c :: cs).reverse = chompingFrom (c :: cs).reverse := by
    simp only [List.reverse_append, List.reverse_cons, List.append_assoc, List.singleton_append]
    exact chompingFrom_append inside
  rw [literalHeader_eq, same]
  generalize chompingFrom (c :: cs).reverse = chomping at lined
  rw [begins] at lined ⊢
  generalize literalRest false cs ++ closing (c :: cs) = w at lined
  by_cases given : (bs ++ c :: cs).head?.any (fun c => c == ' ' || isBreak c) = true
  · obtain ⟨i₁, header⟩ := @BlockHeader.read_given chomping
      (bs ++ (indentChars ++ (c :: w ++ rest))) (i + 1) l (k + 1)
    obtain ⟨i₂, widest, empty⟩ := @readEmptyLines_breaks bs (indentChars ++ (c :: w ++ rest))
      (c :: w ++ rest) [] ((bs ++ (indentChars ++ (c :: w ++ rest))).length + 1) 0 i₁ (l + 1) 2
      (fun d hd => ends d (List.mem_append_left _ hd) (breaks d hd)) (.line c (w ++ rest) inside)
      (length_lt_append bs _)
    obtain ⟨i', l', read⟩ := @lined.read chomping (c :: cs) (c :: w) rest [] [] bs false
      ((c :: w ++ rest).length + 1) i₂ (l + 1 + bs.length) stops (length_lt_append (c :: w) rest)
    refine ⟨i', l', ?_⟩
    rw [if_pos given]
    exact readBlock_parts header empty (.inl rfl) read
  · obtain rfl : bs = [] := by
      cases bs with
      | nil => rfl
      | cons b bs => exact absurd (by simp [breaks b List.mem_cons_self]) given
    have solid : IsSolid c := by
      apply (solid_of_visible visible inside).resolve_left
      rintro rfl
      exact given rfl
    obtain ⟨i₁, header⟩ := @BlockHeader.read_shown chomping (indentChars ++ (c :: w ++ rest))
      (i + 1) l (k + 1)
    obtain ⟨i', l', read⟩ := @lined.read chomping (c :: cs) (c :: w) rest [] [] [] false
      ((c :: w ++ rest).length + 1) (i₁ + 2) (l + 1) stops (length_lt_append (c :: w) rest)
    refine ⟨i', l', ?_⟩
    rw [if_neg given]
    exact readBlock_parts header (readEmptyLines_shown solid) (.inr ⟨rfl, rfl⟩) read

/-- What is written as a block is read as it was. -/
theorem readBlock_literal (filled : cs ≠ []) (visible : ∀ c ∈ cs, isVisible c = true)
    (stops : Stops rest) : ∃ i' l', readBlock true 0
      ⟨literalHeader cs ++ '\n' :: literalRest true cs ++ closing cs ++ rest, i, l, k⟩ =
      .ok (String.ofList cs, ⟨rest, i', l', 0⟩) := by
  have ends : ∀ c ∈ cs, isBreak c = true → IsLineEnd c :=
    fun c hc => separator_of_visible (visible c hc)
  obtain ⟨bs, ds, rfl, breaks, after⟩ := exists_run isBreak cs
  cases ds with
  | nil =>
      rw [List.append_nil] at filled ends ⊢
      have block := @readBlock_breaks bs rest i l k (fun c hc => ends c hc (breaks c hc)) filled
        stops
      obtain ⟨b, bs, rfl⟩ := List.exists_cons_of_ne_nil filled
      have body : literalRest true (b :: bs ++ []) = b :: bs ++ literalRest true [] :=
        literalRest_breaks breaks
      have close : closing ([] ++ b :: bs) = [] := closing_breaks breaks
      rw [List.append_nil, literalRest, List.append_nil] at body
      rw [List.nil_append] at close
      rw [body, close]
      simpa using block
  | cons c ds =>
      have inside : isBreak c = false := after c rfl
      have block := @readBlock_lines bs ds rest c i l k ends breaks inside (visible c (by simp))
        stops
      rw [literalRest_breaks breaks, literalRest_margin inside, closing_append]
      simpa using block

end Whole

end AssessmentPlans.Yaml
