import AssessmentPlans.Proofs.Json.Numeral
import AssessmentPlans.Proofs.Json.Text

/-! A written value is read back as the draft of that value, if its numbers are whole.
The layout between items does not count, and the fuel of the reader lasts. -/
namespace AssessmentPlans.Json

mutual

/-- The draft that says a value. What a reader that has enough meets while items remain
is told by their number. -/
def Value.draft (surplus : Nat → Fault) : Value → Draft
  | .null => .null
  | .boolean b => .boolean b
  | .number n => .numeral (some n)
  | .text s => .text (.ok s)
  | .array vs => .array (draftItems surplus vs) none (surplus vs.length)
  | .object ms => .object (draftMembers surplus ms) none

def Value.draftItems (surplus : Nat → Fault) : List Value → List Draft
  | [] => []
  | v :: vs => v.draft surplus :: draftItems surplus vs

def Value.draftMembers (surplus : Nat → Fault) :
    List (String × Value) → List (Except Fault String × Draft)
  | [] => []
  | (key, v) :: ms => (.ok key, v.draft surplus) :: draftMembers surplus ms

end

mutual

/-- All numbers of the value are whole. -/
def Value.Whole : Value → Prop
  | .number n => n.Whole
  | .array vs => WholeItems vs
  | .object ms => WholeMembers ms
  | _ => True

def Value.WholeItems : List Value → Prop
  | [] => True
  | v :: vs => v.Whole ∧ WholeItems vs

def Value.WholeMembers : List (String × Value) → Prop
  | [] => True
  | (_, v) :: ms => v.Whole ∧ WholeMembers ms

end

mutual

/-- The fuel that reading takes: one unit for each value, item, member and end. -/
def Value.cost : Value → Nat
  | .array vs => costOfItems vs + 1
  | .object ms => costOfMembers ms + 1
  | _ => 1

def Value.costOfItems : List Value → Nat
  | [] => 1
  | v :: vs => v.cost + costOfItems vs + 1

def Value.costOfMembers : List (String × Value) → Nat
  | [] => 1
  | (_, v) :: ms => v.cost + costOfMembers ms + 1

end

namespace Value

theorem wholeItems_iff {vs : List Value} : WholeItems vs ↔ ∀ v ∈ vs, v.Whole := by
  induction vs with
  | nil => simp [WholeItems]
  | cons v vs ih => simp only [WholeItems, ih, List.forall_mem_cons]

theorem wholeMembers_iff {ms : List (String × Value)} :
    WholeMembers ms ↔ ∀ m ∈ ms, m.2.Whole := by
  induction ms with
  | nil => simp [WholeMembers]
  | cons m ms ih => simp only [WholeMembers, ih, List.forall_mem_cons]

theorem draftItems_eq_map {surplus : Nat → Fault} (vs : List Value) :
    draftItems surplus vs = vs.map (·.draft surplus) := by
  induction vs with
  | nil => rfl
  | cons v vs ih => rw [draftItems, ih, List.map_cons]

theorem draftMembers_eq_map {surplus : Nat → Fault} (ms : List (String × Value)) :
    draftMembers surplus ms = ms.map fun m => (.ok m.1, m.2.draft surplus) := by
  induction ms with
  | nil => rfl
  | cons m ms ih => rw [draftMembers, ih, List.map_cons]

/-! Space. -/

theorem skipSpace_newline (depth : Nat) (cs : List Char) :
    skipSpace (newline depth ++ cs) = skipSpace cs := by
  refine List.dropWhile_append_of_pos ?_
  intro c hc
  rcases List.mem_cons.mp hc with rfl | hc
  · rfl
  · rw [List.eq_of_mem_replicate hc]
    rfl

theorem readDraft_newline (fuel depth : Nat) (cs : List Char) :
    readDraft fuel (newline depth ++ cs) = readDraft fuel cs := by
  cases fuel with
  | zero => rfl
  | succ fuel => rw [readDraft, readDraft, skipSpace_newline]

theorem readDraft_space (fuel : Nat) (cs : List Char) :
    readDraft fuel (' ' :: cs) = readDraft fuel cs := by
  cases fuel with
  | zero => rfl
  | succ fuel => rfl

theorem ends_newline (depth : Nat) (cs : List Char) : Numeral.Ends (newline depth ++ cs) :=
  Numeral.ends_cons (by decide) (by decide)

theorem ends_moreItems (depth : Nat) (vs : List Value) (cs : List Char) :
    Numeral.Ends (moreItems (depth + 1) vs ++ (newline depth ++ cs)) := by
  cases vs with
  | nil => exact ends_newline depth cs
  | cons v vs => exact Numeral.ends_cons (by decide) (by decide)

theorem ends_moreMembers (depth : Nat) (ms : List (String × Value)) (cs : List Char) :
    Numeral.Ends (moreMembers (depth + 1) ms ++ (newline depth ++ cs)) := by
  cases ms with
  | nil => exact ends_newline depth cs
  | cons m ms => exact Numeral.ends_cons (by decide) (by decide)

/-! Scalars. -/

/-- A character with which a value can begin. -/
def Begins (c : Char) : Prop := isSpace c = false ∧ c ≠ ']' ∧ c ≠ ','

/-- A text that goes on with a value. -/
def Starts (cs : List Char) : Prop := ∃ c tail, cs = c :: tail ∧ Begins c

theorem Starts.append {cs : List Char} (h : Starts cs) (rest : List Char) :
    Starts (cs ++ rest) := by
  obtain ⟨c, tail, rfl, begins⟩ := h
  exact ⟨c, tail ++ rest, rfl, begins⟩

theorem skipSpace_begins {c : Char} (h : Begins c) (cs : List Char) :
    skipSpace (c :: cs) = c :: cs := by
  rw [skipSpace, List.dropWhile_cons, h.1]
  rfl

theorem begins_digit {c : Char} (h : Numeral.isDigit c = true) : Begins c := by
  have other : ∀ d, Numeral.isDigit d = false → c ≠ d := by
    intro d hd same
    rw [same, hd] at h
    cases h
  refine ⟨?_, other _ rfl, other _ rfl⟩
  simp only [isSpace, Bool.or_eq_false_iff, beq_eq_false_iff_ne]
  exact ⟨⟨⟨other _ rfl, other _ rfl⟩, other _ rfl⟩, other _ rfl⟩

theorem begins_literal {c : Char} (h : c ∈ ['n', 't', 'f', '"', '[', '\x7b', '-']) : Begins c := by
  have each : (['n', 't', 'f', '"', '[', '\x7b', '-'].all fun d =>
      !isSpace d && (d != ']' && d != ',')) = true := by decide
  have literal := List.all_eq_true.mp each c h
  simpa only [Bool.and_eq_true, Bool.not_eq_true', bne_iff_ne, Begins] using literal

theorem toDigits_cons (n : Nat) :
    ∃ d ds, Nat.toDigits 10 n = d :: ds ∧ Numeral.isDigit d = true := by
  cases digits : Nat.toDigits 10 n with
  | nil => exact absurd digits Nat.toDigits_ne_nil
  | cons d ds =>
      refine ⟨d, ds, rfl, Numeral.isDigit_of_mem_toDigits (n := n) ?_⟩
      rw [digits]
      exact List.mem_cons_self

/-- The digits of an integer, after its sign. -/
theorem integer_chars (n : Int) :
    (Number.integer n).chars false =
      if n < 0 then '-' :: Nat.toDigits 10 (-n).toNat else Nat.toDigits 10 n.toNat := by
  rw [Number.chars, Int.toString_eq_repr, Int.repr_eq_if]
  by_cases h : n < 0
  · rw [if_neg (by omega), if_pos h, String.toList_append, Nat.toList_repr]
    rfl
  · rw [if_pos (by omega), if_neg h, Nat.toList_repr]

theorem starts_number {n : Number} (whole : n.Whole) : Starts (n.chars false) := by
  cases n with
  | integer n =>
      rw [integer_chars]
      split
      · exact ⟨_, _, rfl, begins_literal (by decide)⟩
      · obtain ⟨d, ds, digits, digit⟩ := toDigits_cons n.toNat
        exact ⟨d, ds, digits, begins_digit digit⟩
  | real x =>
      cases whole
      exact ⟨'-', ['0', '.', '0'], rfl, begins_literal (by decide)⟩

theorem starts_chars {v : Value} (whole : v.Whole) (depth : Nat) : Starts (v.chars depth) := by
  cases v with
  | null => exact ⟨_, _, rfl, begins_literal (by decide)⟩
  | boolean b => cases b <;> exact ⟨_, _, rfl, begins_literal (by decide)⟩
  | number n =>
      rw [chars]
      exact starts_number whole
  | text s =>
      rw [chars, textChars]
      exact ⟨_, _, rfl, begins_literal (by decide)⟩
  | array vs =>
      cases vs <;> rw [chars] <;> exact ⟨_, _, rfl, begins_literal (by decide)⟩
  | object ms =>
      cases ms <;> rw [chars] <;> exact ⟨_, _, rfl, begins_literal (by decide)⟩

theorem readNumeral_natural (negative : Bool) {n : Nat} {rest : List Char}
    (ends : Numeral.Ends rest) (bound : n < if negative then Nat.pow 2 63 + 1 else Nat.pow 2 64)
    (sign : negative = true → n ≠ 0) :
    readNumeral negative (Nat.toDigits 10 n ++ rest) =
      (.numeral (some (.integer (if negative then -(n : Int) else n))), rest) := by
  rw [readNumeral, Numeral.read_toDigits negative n ends]
  simp only [Numeral.number?_toDigits negative bound sign]

theorem readDraft_digit {c : Char} (h : Numeral.isDigit c = true) (fuel : Nat) (cs : List Char) :
    readDraft (fuel + 1) (c :: cs) = readNumeral false (c :: cs) := by
  have other : ∀ d, Numeral.isDigit d = false → c ≠ d := by
    intro d hd same
    rw [same, hd] at h
    cases h
  rw [readDraft, skipSpace_begins (begins_digit h)]
  simp only [h, if_true, if_neg (other 'n' rfl), if_neg (other 't' rfl), if_neg (other 'f' rfl),
    if_neg (other '-' rfl)]

theorem readDraft_number {n : Number} (whole : n.Whole) {rest : List Char}
    (ends : Numeral.Ends rest) (fuel : Nat) :
    readDraft (fuel + 1) (n.chars false ++ rest) = (.numeral (some n), rest) := by
  cases n with
  | integer n =>
      obtain ⟨low, high⟩ := whole
      have p63 : (Nat.pow 2 63 : Nat) = 9223372036854775808 := rfl
      have p64 : (Nat.pow 2 64 : Nat) = 18446744073709551616 := rfl
      rw [integer_chars]
      by_cases h : n < 0
      · rw [if_pos h]
        have read := readNumeral_natural true (n := (-n).toNat) ends
          (by simp only [if_true]; omega) (by omega)
        have sign : (-((-n).toNat : Int)) = n := by omega
        rw [if_pos rfl, sign] at read
        exact read
      · rw [if_neg h]
        have read := readNumeral_natural false (n := n.toNat) ends
          (by simp only [Bool.false_eq_true, if_false]; omega) nofun
        have sign : (n.toNat : Int) = n := by omega
        rw [if_neg Bool.false_ne_true, sign] at read
        obtain ⟨d, ds, digits, digit⟩ := toDigits_cons n.toNat
        rw [digits] at read ⊢
        rw [List.cons_append, readDraft_digit digit]
        exact read
  | real x =>
      cases whole
      change readNumeral true ('0' :: '.' :: '0' :: rest) = _
      rw [readNumeral, Numeral.read_minusZero ends]
      simp only [Numeral.number?_minusZero]

/-! Containers. -/

/-- What a reader of a text meets when it has enough while items remain. -/
def textSurplus : Nat → Fault := fun _ => .trailingCharacters

theorem readDraft_array (fuel : Nat) (cs : List Char) :
    readDraft (fuel + 1) ('[' :: cs) =
      (.array (readItems fuel true cs).1 (readItems fuel true cs).2.1 .trailingCharacters,
        (readItems fuel true cs).2.2) := rfl

theorem readDraft_object (fuel : Nat) (cs : List Char) :
    readDraft (fuel + 1) ('\x7b' :: cs) =
      (.object (readMembers fuel true cs).1 (readMembers fuel true cs).2.1,
        (readMembers fuel true cs).2.2) := rfl

theorem textChars_append (s : String) (rest : List Char) :
    textChars s ++ rest = '"' :: (s.toList.flatMap escapeChar ++ '"' :: rest) := by
  simp only [textChars, List.cons_append, List.append_assoc, List.nil_append]

theorem readDraft_text (fuel : Nat) (s : String) (rest : List Char) :
    readDraft (fuel + 1) (textChars s ++ rest) = (.text (.ok s), rest) := by
  have digit : Numeral.isDigit '"' = false := rfl
  rw [textChars_append, readDraft, skipSpace_begins (begins_literal (by decide))]
  simp only [readText_textChars, digit, Bool.false_eq_true, Char.reduceEq, if_false, if_true]

/-- The end of a list, on a line of its own. -/
theorem readItems_end (fuel depth : Nat) (first : Bool) (rest : List Char) :
    readItems (fuel + 1) first (newline depth ++ ']' :: rest) = ([], none, rest) := by
  rw [readItems, skipSpace_newline]
  rfl

theorem readItems_first (fuel depth : Nat) {cs : List Char} (starts : Starts cs) :
    readItems (fuel + 1) true (newline depth ++ cs) =
      ((readDraft fuel cs).1 :: (readItems fuel false (readDraft fuel cs).2).1,
        (readItems fuel false (readDraft fuel cs).2).2) := by
  obtain ⟨c, tail, rfl, begins⟩ := starts
  rw [readItems, skipSpace_newline, skipSpace_begins begins]
  simp only [if_neg begins.2.1, if_neg begins.2.2, if_true]

theorem readItems_next (fuel depth : Nat) {cs : List Char} (starts : Starts cs) :
    readItems (fuel + 1) false (',' :: (newline depth ++ cs)) =
      ((readDraft fuel cs).1 :: (readItems fuel false (readDraft fuel cs).2).1,
        (readItems fuel false (readDraft fuel cs).2).2) := by
  obtain ⟨c, tail, rfl, begins⟩ := starts
  have comma : skipSpace (',' :: (newline depth ++ c :: tail)) =
      ',' :: (newline depth ++ c :: tail) := rfl
  have closes : (some c = some ']') = False := by simp [begins.2.1]
  rw [readItems, comma]
  simp only [skipSpace_newline, skipSpace_begins begins, List.head?_cons, closes,
    List.isEmpty_cons, readDraft_newline, Bool.false_eq_true, if_false, if_true, Char.reduceEq]

theorem readMembers_end (fuel depth : Nat) (first : Bool) (rest : List Char) :
    readMembers (fuel + 1) first (newline depth ++ '\x7d' :: rest) = ([], none, rest) := by
  rw [readMembers, skipSpace_newline]
  rfl

theorem readMembers_first (fuel depth : Nat) (key : String) (cs : List Char) :
    readMembers (fuel + 1) true (newline depth ++ (textChars key ++ (':' :: ' ' :: cs))) =
      ((.ok key, (readDraft fuel cs).1) :: (readMembers fuel false (readDraft fuel cs).2).1,
        (readMembers fuel false (readDraft fuel cs).2).2) := by
  have colon : skipSpace (':' :: ' ' :: cs) = ':' :: ' ' :: cs := rfl
  rw [readMembers, textChars_append, skipSpace_newline,
    skipSpace_begins (begins_literal (by decide))]
  simp only [readText_textChars, colon, readDraft_space, Bool.not_true, Bool.and_false,
    Bool.false_eq_true, Char.reduceEq, if_false, if_true]

theorem readMembers_next (fuel depth : Nat) (key : String) (cs : List Char) :
    readMembers (fuel + 1) false (',' :: (newline depth ++ (textChars key ++ (':' :: ' ' :: cs)))) =
      ((.ok key, (readDraft fuel cs).1) :: (readMembers fuel false (readDraft fuel cs).2).1,
        (readMembers fuel false (readDraft fuel cs).2).2) := by
  have comma : ∀ cs, skipSpace (',' :: cs) = ',' :: cs := fun _ => rfl
  have colon : skipSpace (':' :: ' ' :: cs) = ':' :: ' ' :: cs := rfl
  rw [readMembers, textChars_append, comma]
  simp only [skipSpace_newline, skipSpace_begins (begins_literal (c := '"') (by decide)),
    readText_textChars, colon, readDraft_space, Bool.not_false, Bool.and_true, decide_true,
    Char.reduceEq, if_false, if_true]

mutual

/-- What is written of a value is read as its draft, whatever follows it. -/
theorem readDraft_chars (v : Value) (whole : v.Whole) (depth fuel : Nat) (rest : List Char)
    (ends : Numeral.Ends rest) (enough : v.cost ≤ fuel) :
    readDraft fuel (v.chars depth ++ rest) = (v.draft textSurplus, rest) := by
  cases fuel with
  | zero => cases v <;> simp [cost] at enough
  | succ fuel =>
      cases v with
      | null => rfl
      | boolean b => cases b <;> rfl
      | number n => exact readDraft_number whole ends fuel
      | text s => exact readDraft_text fuel s rest
      | array vs =>
          cases fuel with
          | zero => cases vs <;> simp [cost, costOfItems] at enough
          | succ fuel =>
              cases vs with
              | nil => rfl
              | cons v vs =>
                  simp only [cost, costOfItems] at enough
                  have item := readDraft_chars v whole.1 (depth + 1) fuel
                    (moreItems (depth + 1) vs ++ (newline depth ++ ']' :: rest))
                    (ends_moreItems depth vs _) (by omega)
                  have items := readItems_moreItems vs whole.2 depth fuel rest (by omega)
                  simp only [chars, List.cons_append, List.append_assoc, List.nil_append]
                  rw [readDraft_array, readItems_first fuel _ ((starts_chars whole.1 _).append _),
                    item, items]
                  rfl
      | object ms =>
          cases fuel with
          | zero => cases ms <;> simp [cost, costOfMembers] at enough
          | succ fuel =>
              cases ms with
              | nil => rfl
              | cons m ms =>
                  obtain ⟨key, v⟩ := m
                  simp only [cost, costOfMembers] at enough
                  have item := readDraft_chars v whole.1 (depth + 1) fuel
                    (moreMembers (depth + 1) ms ++ (newline depth ++ '\x7d' :: rest))
                    (ends_moreMembers depth ms _) (by omega)
                  have items := readMembers_moreMembers ms whole.2 depth fuel rest (by omega)
                  simp only [chars, List.cons_append, List.append_assoc, List.nil_append]
                  rw [readDraft_object, readMembers_first, item, items]
                  rfl

theorem readItems_moreItems (vs : List Value) (whole : WholeItems vs) (depth fuel : Nat)
    (rest : List Char) (enough : costOfItems vs ≤ fuel) :
    readItems fuel false (moreItems (depth + 1) vs ++ (newline depth ++ ']' :: rest)) =
      (draftItems textSurplus vs, none, rest) := by
  cases fuel with
  | zero => cases vs <;> simp [costOfItems] at enough
  | succ fuel =>
      cases vs with
      | nil => exact readItems_end fuel depth false rest
      | cons v vs =>
          simp only [costOfItems] at enough
          have item := readDraft_chars v whole.1 (depth + 1) fuel
            (moreItems (depth + 1) vs ++ (newline depth ++ ']' :: rest))
            (ends_moreItems depth vs _) (by omega)
          have items := readItems_moreItems vs whole.2 depth fuel rest (by omega)
          simp only [moreItems, List.cons_append, List.append_assoc]
          rw [readItems_next fuel _ ((starts_chars whole.1 _).append _), item, items]
          rfl

theorem readMembers_moreMembers (ms : List (String × Value)) (whole : WholeMembers ms)
    (depth fuel : Nat) (rest : List Char) (enough : costOfMembers ms ≤ fuel) :
    readMembers fuel false (moreMembers (depth + 1) ms ++ (newline depth ++ '\x7d' :: rest)) =
      (draftMembers textSurplus ms, none, rest) := by
  cases fuel with
  | zero => cases ms <;> simp [costOfMembers] at enough
  | succ fuel =>
      cases ms with
      | nil => exact readMembers_end fuel depth false rest
      | cons m ms =>
          obtain ⟨key, v⟩ := m
          simp only [costOfMembers] at enough
          have item := readDraft_chars v whole.1 (depth + 1) fuel
            (moreMembers (depth + 1) ms ++ (newline depth ++ '\x7d' :: rest))
            (ends_moreMembers depth ms _) (by omega)
          have items := readMembers_moreMembers ms whole.2 depth fuel rest (by omega)
          simp only [moreMembers, List.cons_append, List.append_assoc]
          rw [readMembers_next, item, items]
          rfl

end

/-! The fuel. -/

mutual

theorem cost_le_chars (v : Value) (whole : v.Whole) (depth : Nat) :
    v.cost ≤ 2 * (v.chars depth).length := by
  cases v with
  | array vs =>
      cases vs with
      | nil => simp [cost, costOfItems, chars]
      | cons v vs =>
          have item := cost_le_chars v whole.1 (depth + 1)
          have items := costOfItems_le_moreItems vs whole.2 (depth + 1)
          simp only [cost, costOfItems, chars, newline, List.length_cons, List.length_append,
            List.length_nil]
          omega
  | object ms =>
      cases ms with
      | nil => simp [cost, costOfMembers, chars]
      | cons m ms =>
          obtain ⟨key, v⟩ := m
          have item := cost_le_chars v whole.1 (depth + 1)
          have items := costOfMembers_le_moreMembers ms whole.2 (depth + 1)
          simp only [cost, costOfMembers, chars, newline, List.length_cons, List.length_append,
            List.length_nil]
          omega
  | null => simp [cost, chars]
  | boolean b => cases b <;> simp [cost, chars]
  | number n =>
      obtain ⟨c, tail, hc, _⟩ := starts_number whole
      simp only [cost, chars, hc, List.length_cons]
      omega
  | text s =>
      simp only [cost, chars, textChars, List.length_cons]
      omega

theorem costOfItems_le_moreItems (vs : List Value) (whole : WholeItems vs) (depth : Nat) :
    costOfItems vs ≤ 2 * (moreItems depth vs).length + 1 := by
  cases vs with
  | nil => simp [costOfItems, moreItems]
  | cons v vs =>
      have item := cost_le_chars v whole.1 depth
      have items := costOfItems_le_moreItems vs whole.2 depth
      simp only [costOfItems, moreItems, newline, List.length_cons, List.length_append]
      omega

theorem costOfMembers_le_moreMembers (ms : List (String × Value)) (whole : WholeMembers ms)
    (depth : Nat) : costOfMembers ms ≤ 2 * (moreMembers depth ms).length + 1 := by
  cases ms with
  | nil => simp [costOfMembers, moreMembers]
  | cons m ms =>
      obtain ⟨key, v⟩ := m
      have item := cost_le_chars v whole.1 depth
      have items := costOfMembers_le_moreMembers ms whole.2 depth
      simp only [costOfMembers, moreMembers, newline, List.length_cons, List.length_append]
      omega

end

/-- The text of a value with whole numbers is read as the draft of that value, and
nothing is left over. -/
theorem ofText_pretty {v : Value} (whole : v.Whole) :
    Source.ofText v.pretty = ⟨v.draft textSurplus, false⟩ := by
  have enough := cost_le_chars v whole 0
  have read := readDraft_chars v whole 0 (2 * (v.chars 0).length + 2) [] Numeral.ends_nil (by omega)
  rw [List.append_nil] at read
  simp only [Source.ofText, Text.characters_eq, pretty, String.toList_ofList, read]
  rfl

end Value
end AssessmentPlans.Json
