import AssessmentPlans.Proofs.Yaml.Gap
import AssessmentPlans.Yaml.Quoted

/-! Scalars between quotes are read as what they say: words with every character spelled on
its own, and between them gaps of spaces, or of line breaks that count. -/
namespace AssessmentPlans.Yaml

/-! Escapes. -/

section Escape

variable {c : Char} {ds : List Char}

/-- What stands behind a backslash is read as that character. -/
def IsEscape (c : Char) (ds : List Char) : Prop :=
  (∃ x rest, ds = x :: rest ∧ isBreak x = false) ∧
    ∀ cs i l k, readEscape ⟨ds ++ cs, i, l, k⟩ = .ok (c, ⟨cs, i + ds.length, l, k + ds.length⟩)

theorem isEscape_letter {x : Char} (line : isBreak x = false) (known : escaped? x = some c) :
    IsEscape c [x] := by
  refine ⟨⟨x, _, rfl, line⟩, fun cs i l k => ?_⟩
  simp [readEscape, known]

theorem isEscape_digits {x : Char} (line : isBreak x = false) (other : escaped? x = none)
    (known : escapeLength? x = some ds.length)
    (value : (Text.natural? 16 ds).bind charOf? = some c) : IsEscape c (x :: ds) := by
  refine ⟨⟨x, _, rfl, line⟩, fun cs i l k => ?_⟩
  simp [readEscape, other, known, value]

/-- The characters of one byte have two digits. -/
theorem paddedHex_byte : ∀ n < 256, (paddedHex 2 n).length = 2 ∧
    (Text.natural? 16 (paddedHex 2 n)).bind charOf? = some (Char.ofNat n) := by
  decide +kernel

/-- The other characters that do not show themselves. -/
theorem hidden_of_large (hidden : isVisible c = false) (large : 0xFF < c.toNat) :
    c = '\ufeff' ∨ c = '\ufffe' ∨ c = '\uffff' := by
  have valid : c.toNat < 0xD800 ∨ 0xDFFF < c.toNat ∧ c.toNat < 0x110000 := c.valid
  have code : c.toNat = 0xFEFF ∨ c.toNat = 0xFFFE ∨ c.toNat = 0xFFFF := by
    simp only [isVisible, Bool.or_eq_false_iff, Bool.and_eq_false_iff, decide_eq_false_iff_not,
      bne_eq_false_iff_eq, beq_eq_false_iff_ne] at hidden
    omega
  rcases code with code | code | code
  · exact .inl (Char.toNat_inj.mp code)
  · exact .inr (.inl (Char.toNat_inj.mp code))
  · exact .inr (.inr (Char.toNat_inj.mp code))

/-- The characters with an escape of one letter. -/
def lettered : List Char :=
  ['\x00', '\x07', '\x08', '\t', '\n', '\x0b', '\x0c', '\r', '\x1b', '"', '\\', '\x85', '\u2028',
    '\u2029']

theorem escapeChar_lettered (h : c ∈ lettered) :
    ∃ x, escapeChar c = ['\\', x] ∧ isBreak x = false ∧ escaped? x = some c := by
  simp only [lettered, List.mem_cons, List.not_mem_nil, or_false] at h
  rcases h with rfl | rfl | rfl | rfl | rfl | rfl | rfl | rfl | rfl | rfl | rfl | rfl | rfl | rfl
  all_goals exact ⟨_, rfl, rfl, rfl⟩

theorem escapeChar_other (h : c ∉ lettered) : escapeChar c =
    if isVisible c then [c] else if c.toNat ≤ 0xFF then '\\' :: 'x' :: paddedHex 2 c.toNat
    else if c.toNat ≤ 0xFFFF then '\\' :: 'u' :: paddedHex 4 c.toNat
    else '\\' :: 'U' :: paddedHex 8 c.toNat := by
  simp only [lettered, List.mem_cons, List.not_mem_nil, or_false, not_or] at h
  simp [escapeChar, h]

theorem isBreak_lettered (h : isBreak c = true) : c ∈ lettered := by
  simp only [isBreak, Bool.or_eq_true, beq_iff_eq] at h
  rcases h with (((rfl | rfl) | rfl) | rfl) | rfl
  all_goals decide

/-- A character that is written between double quotes stands for itself, or behind a
backslash. -/
theorem escapeChar_cases (c : Char) :
    (escapeChar c = [c] ∧ (c = ' ' ∨ IsSolid c) ∧ c ≠ '"' ∧ c ≠ '\\') ∨
      ∃ ds, escapeChar c = '\\' :: ds ∧ IsEscape c ds := by
  by_cases letter : c ∈ lettered
  · obtain ⟨x, written, line, known⟩ := escapeChar_lettered letter
    exact .inr ⟨[x], written, isEscape_letter line known⟩
  · rw [escapeChar_other letter]
    cases visible : isVisible c with
    | true =>
        have line : isBreak c = false := Bool.eq_false_iff.mpr (mt isBreak_lettered letter)
        refine .inl ⟨rfl, solid_of_visible visible line, ?_, ?_⟩
        · rintro rfl
          exact letter (by decide)
        · rintro rfl
          exact letter (by decide)
    | false =>
        right
        by_cases small : c.toNat ≤ 0xFF
        · obtain ⟨length, value⟩ := paddedHex_byte c.toNat (Nat.lt_succ_of_le small)
          rw [Char.ofNat_toNat] at value
          refine ⟨'x' :: paddedHex 2 c.toNat, by simp [small], ?_⟩
          exact isEscape_digits rfl rfl (congrArg some length.symm) value
        · rcases hidden_of_large visible (Nat.not_le.mp small) with rfl | rfl | rfl
          all_goals exact ⟨_, rfl, isEscape_digits rfl rfl rfl rfl⟩

end Escape

/-! Words. -/

/-- The closing quote. -/
def quoteOf (single : Bool) : Char := if single then '\'' else '"'

/-- A character as it is written within a word. -/
def written (single : Bool) (c : Char) : List Char :=
  if single then if c == '\'' then ['\'', '\''] else [c] else escapeChar c

/-- A character of a word. Between double quotes a line break has an escape. -/
def IsWritten (single : Bool) (c : Char) : Prop := if single then IsSolid c else c ≠ ' '

/-- Neither a word nor a doubled quote goes on with this text. -/
def EndsWritten (single : Bool) (cs : List Char) : Prop :=
  ∃ c rest, cs = c :: rest ∧ (isGap c = true ∨ isBreak c = true ∨
    c = quoteOf single ∧ rest.head? ≠ some '\'')

section Word

variable {single : Bool} {w cs back : List Char} {c : Char} {fuel i l k : Nat}

theorem written_stops (h : IsWritten single c) (cs : List Char) :
    Stops (written single c ++ cs) := by
  cases single with
  | true =>
      by_cases quote : c = '\''
      · rw [quote]
        exact stops_cons (by decide)
      · rw [written, if_pos rfl, if_neg (mt beq_iff_eq.mp quote)]
        exact stops_cons h
  | false =>
      rcases escapeChar_cases c with ⟨same, solid, _⟩ | ⟨ds, same, _⟩
      · rw [written, if_neg Bool.false_ne_true, same]
        exact stops_cons (solid.resolve_left h)
      · rw [written, if_neg Bool.false_ne_true, same]
        exact stops_cons (by decide)

theorem readQuotedWord_cons (h : IsWritten single c) :
    readQuotedWord single (fuel + 1) back ⟨written single c ++ cs, i, l, k⟩ =
      readQuotedWord single fuel (c :: back)
        ⟨cs, i + (written single c).length, l, k + (written single c).length⟩ := by
  rw [readQuotedWord]
  cases single with
  | true =>
      obtain ⟨gap, brk⟩ : IsSolid c := h
      by_cases quote : c = '\''
      · subst quote
        simp [written, gap, brk]
      · simp [written, gap, brk, quote]
  | false =>
      have space : c ≠ ' ' := h
      rcases escapeChar_cases c with
        ⟨same, solid, quote, slash⟩ | ⟨_, same, ⟨x, rest, rfl, line⟩, read⟩
      · obtain ⟨gap, brk⟩ := solid.resolve_left space
        simp [written, same, gap, brk, quote, slash]
      · have slash : isGap '\\' = false ∧ isBreak '\\' = false := ⟨rfl, rfl⟩
        simp only [List.cons_append] at read
        simp only [written, Bool.false_eq_true, ↓reduceIte, same, ↓Char.isValue, List.cons_append,
          Cursor.peek_mk, List.head?_cons, slash, Bool.or_self, Char.reduceBEq, bne_self_eq_false,
          Cursor.ahead_mk, List.getElem?_cons_succ, List.getElem?_cons_zero, Option.any_some, line, bind,
          Except.bind, Cursor.skip_mk, List.drop_succ_cons, List.drop_zero, read, List.length_cons,
          Nat.add_assoc, Nat.add_comm 1, Nat.reduceAdd]

/-- A word is read up to where it ends. -/
theorem readQuotedWord_written (word : ∀ c ∈ w, IsWritten single c) (ends : EndsWritten single cs)
    (lasts : w.length < fuel) :
    readQuotedWord single fuel back ⟨w.flatMap (written single) ++ cs, i, l, k⟩ =
      .ok (w.reverse ++ back, .start, ⟨cs, i + (w.flatMap (written single)).length, l,
        k + (w.flatMap (written single)).length⟩) := by
  induction w generalizing back fuel i k with
  | nil =>
      obtain ⟨fuel, rfl⟩ := Nat.exists_eq_add_one.mpr lasts
      obtain ⟨c, rest, rfl, stop⟩ := ends
      rw [readQuotedWord]
      rcases stop with gap | brk | ⟨rfl, other⟩
      · simp [gap]
      · simp [brk]
      · cases single with
        | true => simp [quoteOf, ← List.head?_eq_getElem?, other]
        | false => simp [quoteOf]
  | cons c w ih =>
      obtain ⟨first, later⟩ := List.forall_mem_cons.mp word
      obtain ⟨fuel, rfl⟩ := Nat.exists_eq_add_one.mpr (Nat.zero_lt_of_lt lasts)
      rw [List.flatMap_cons, List.append_assoc, readQuotedWord_cons first,
        ih later (Nat.lt_of_succ_lt_succ lasts)]
      simp [Nat.add_assoc]

end Word

/-! Words and gaps. -/

/-- A text between quotes, word by word, and how it is written. -/
inductive Spelled (single : Bool) : List Char → List Char → Prop
  | last {w} (word : ∀ c ∈ w, IsWritten single c) : Spelled single w (w.flatMap (written single))
  | spaces {w s cs ds} (word : ∀ c ∈ w, IsWritten single c) (nonempty : s ≠ [])
      (spaces : ∀ c ∈ s, c = ' ') (stops : Stops ds) (later : Spelled single cs ds) :
      Spelled single (w ++ (s ++ cs)) (w.flatMap (written single) ++ (s ++ ds))
  | breaks {w b bs cs ds} (kept : single = true) (word : ∀ c ∈ w, IsWritten single c)
      (breaks : ∀ c ∈ b :: bs, IsSeparator c) (stops : Stops ds) (later : Spelled single cs ds) :
      Spelled single (w ++ (b :: bs ++ cs))
        (w.flatMap (written single) ++ (b :: bs ++ (indentChars ++ ds)))

section Between

variable {single : Bool} {w s cs ds rest back : List Char} {c : Char} {fuel i l k : Nat}

theorem stops_close (h : Stops ds) : Stops (ds ++ quoteOf single :: rest) := by
  cases ds with
  | nil =>
      apply stops_cons
      cases single <;> decide
  | cons d ds => exact stops_cons (h d rfl)

theorem length_lt_written (w : List Char) (ends : EndsWritten single cs) :
    w.length < (w.flatMap (written single) ++ cs).length := by
  induction w with
  | nil =>
      obtain ⟨c, rest, rfl, _⟩ := ends
      exact Nat.succ_pos _
  | cons c w ih =>
      have shown : 0 < (written single c).length := by
        cases single with
        | true => by_cases quote : c = '\'' <;> simp [written, quote]
        | false => rcases escapeChar_cases c with ⟨same, _⟩ | ⟨ds, same, _⟩ <;> simp [written, same]
      simp only [List.flatMap_cons, List.length_append, List.length_cons] at ih ⊢
      omega

section Step

variable (word : ∀ c ∈ w, IsWritten single c)
include word

/-- One word, up to the closing quote or the gap behind it. -/
theorem readQuotedFrom_word (ends : EndsWritten single cs) (inner : 0 < k) :
    readQuotedFrom single (fuel + 1) back ⟨w.flatMap (written single) ++ cs, i, l, k⟩ =
      if cs.head? = some (quoteOf single) then
        .ok (back.reverse ++ w, ⟨cs.tail, i + (w.flatMap (written single)).length + 1, l,
          k + (w.flatMap (written single)).length + 1⟩)
      else (Gap.start.read 0 cs.length ⟨cs, i + (w.flatMap (written single)).length, l,
          k + (w.flatMap (written single)).length⟩).bind fun (gap, c) =>
        readQuotedFrom single fuel (gap.chars.reverse ++ (w.reverse ++ back)) c := by
  have enough := length_lt_written w ends
  have something : (w.flatMap (written single) ++ cs).head?.isNone = false := by
    rw [Option.isNone_eq_false_iff, List.isSome_head?]
    exact List.ne_nil_of_length_pos (Nat.zero_lt_of_lt enough)
  rw [readQuotedFrom, Cursor.standsDocumentMark_of_pos inner]
  simp only [Cursor.peek_mk, something, Bool.false_eq_true, if_false,
    readQuotedWord_written word ends enough]
  simp [bind, Except.bind, pure, Except.pure, quoteOf]

theorem readQuotedFrom_close (closed : rest.head? ≠ some '\'') (inner : 0 < k) :
    readQuotedFrom single (fuel + 1) back
        ⟨w.flatMap (written single) ++ quoteOf single :: rest, i, l, k⟩ =
      .ok (back.reverse ++ w, ⟨rest, i + (w.flatMap (written single)).length + 1, l,
        k + (w.flatMap (written single)).length + 1⟩) := by
  rw [readQuotedFrom_word word ⟨_, _, rfl, .inr (.inr ⟨rfl, closed⟩)⟩ inner]
  exact if_pos rfl

theorem readQuotedFrom_gap {g : Gap} {after : Cursor} (gap : isGap c = true ∨ isBreak c = true)
    (inner : 0 < k) (read : Gap.start.read 0 (c :: cs).length
      ⟨c :: cs, i + (w.flatMap (written single)).length, l,
        k + (w.flatMap (written single)).length⟩ = .ok (g, after)) :
    readQuotedFrom single (fuel + 1) back ⟨w.flatMap (written single) ++ c :: cs, i, l, k⟩ =
      readQuotedFrom single fuel (g.chars.reverse ++ (w.reverse ++ back)) after := by
  have other : c ≠ quoteOf single := by
    rintro rfl
    cases single <;> rcases gap with gap | gap <;> cases gap
  rw [readQuotedFrom_word word ⟨_, _, rfl, Or.imp_right .inl gap⟩ inner, read]
  exact if_neg (mt Option.some.inj other)

end Step

/-- What is written between quotes is read as it was. -/
theorem Spelled.read (h : Spelled single cs ds) (inner : 0 < k) (lasts : ds.length < fuel)
    (closed : rest.head? ≠ some '\'') : ∃ i' l' k', l ≤ l' ∧ 0 < k' ∧
      readQuotedFrom single fuel back ⟨ds ++ quoteOf single :: rest, i, l, k⟩ =
        .ok (back.reverse ++ cs, ⟨rest, i', l', k'⟩) := by
  induction h generalizing fuel back i l k with
  | last word =>
      obtain ⟨fuel, rfl⟩ := Nat.exists_eq_add_one.mpr (Nat.zero_lt_of_lt lasts)
      exact ⟨_, l, _, Nat.le_refl l, Nat.succ_pos _, readQuotedFrom_close word closed inner⟩
  | @spaces w s cs ds word nonempty spaces stops later ih =>
      obtain ⟨fuel, rfl⟩ := Nat.exists_eq_add_one.mpr (Nat.zero_lt_of_lt lasts)
      obtain ⟨x, s, rfl⟩ := List.exists_cons_of_ne_nil nonempty
      obtain rfl : x = ' ' := spaces x List.mem_cons_self
      have gap := @Gap.read_spaces 0 (' ' :: (s ++ (ds ++ quoteOf single :: rest))).length
        (i + (w.flatMap (written single)).length) l (k + (w.flatMap (written single)).length) .start
        (' ' :: s) (ds ++ quoteOf single :: rest) (stops_close stops) spaces (by simp) rfl
      have shorter : ds.length < fuel := by
        simp only [List.length_append, List.length_cons] at lasts
        omega
      obtain ⟨i', l', k', down, far, read⟩ := @ih ((' ' :: s).reverse ++ (w.reverse ++ back)) fuel
        (i + (w.flatMap (written single)).length + (s.length + 1)) l
        (k + (w.flatMap (written single)).length + (s.length + 1)) (Nat.succ_pos _) shorter
      refine ⟨i', l', k', down, far, ?_⟩
      have layout : w.flatMap (written single) ++ (' ' :: s ++ ds) ++ quoteOf single :: rest =
          w.flatMap (written single) ++ ' ' :: (s ++ (ds ++ quoteOf single :: rest)) := by simp
      rw [layout, readQuotedFrom_gap word (.inl rfl) inner gap]
      refine Eq.trans read ?_
      simp
  | @breaks w b bs cs ds kept word breaks stops later ih =>
      obtain ⟨fuel, rfl⟩ := Nat.exists_eq_add_one.mpr (Nat.zero_lt_of_lt lasts)
      obtain ⟨g, i₁, k₁, chars, deep, gap⟩ := @Gap.read_separators 0
        (b :: (bs ++ (indentChars ++ (ds ++ quoteOf single :: rest)))).length
        (i + (w.flatMap (written single)).length) l (k + (w.flatMap (written single)).length)
        indentChars (ds ++ quoteOf single :: rest) b bs (stops_close stops)
        (List.forall_mem_cons.mpr ⟨rfl, List.forall_mem_singleton.mpr rfl⟩) breaks (by simp)
      have shorter : ds.length < fuel := by
        simp only [List.length_append, List.length_cons] at lasts
        omega
      obtain ⟨i', l', k', down, far, read⟩ := @ih ((b :: bs).reverse ++ (w.reverse ++ back)) fuel
        i₁ (l + (bs.length + 1)) k₁ (Nat.lt_of_lt_of_le Nat.two_pos deep) shorter
      refine ⟨i', l', k', Nat.le_of_add_right_le down, far, ?_⟩
      have brk := (breaks b List.mem_cons_self).isBreak.2
      have layout : w.flatMap (written single) ++ (b :: bs ++ (indentChars ++ ds)) ++
          quoteOf single :: rest = w.flatMap (written single) ++
            b :: (bs ++ (indentChars ++ (ds ++ quoteOf single :: rest))) := by simp
      rw [layout, readQuotedFrom_gap word (.inr brk) inner gap, chars]
      refine Eq.trans read ?_
      simp

theorem readQuoted_spelled (h : Spelled single cs ds) (closed : rest.head? ≠ some '\'') :
    ∃ i' l' k', l ≤ l' ∧ 0 < k' ∧
      readQuoted single ⟨quoteOf single :: (ds ++ quoteOf single :: rest), i, l, k⟩ =
        .ok (String.ofList cs, ⟨rest, i', l', k'⟩) := by
  obtain ⟨i', l', k', down, far, read⟩ := @h.read single cs ds rest []
    ((quoteOf single :: (ds ++ quoteOf single :: rest)).length + 1) (i + 1) l (k + 1)
    (Nat.succ_pos k) (by simp; omega) closed
  refine ⟨i', l', k', down, far, ?_⟩
  rw [readQuoted, Cursor.skip_mk, List.drop_one, List.tail_cons, read]
  rfl

/-! One more character before a text. -/

theorem Spelled.word (h : Spelled single cs ds) (first : IsWritten single c) :
    Spelled single (c :: cs) (written single c ++ ds) := by
  cases h with
  | last word =>
      have longer := Spelled.last (List.forall_mem_cons.mpr ⟨first, word⟩)
      rwa [List.flatMap_cons] at longer
  | spaces word nonempty spaces stops later =>
      have longer :=
        Spelled.spaces (List.forall_mem_cons.mpr ⟨first, word⟩) nonempty spaces stops later
      simpa using longer
  | breaks kept word breaks stops later =>
      have longer := Spelled.breaks kept (List.forall_mem_cons.mpr ⟨first, word⟩) breaks stops later
      simpa using longer

theorem stops_words (word : ∀ d ∈ c :: w, IsWritten single d) :
    Stops ((c :: w).flatMap (written single) ++ ds) := by
  rw [List.flatMap_cons, List.append_assoc]
  exact written_stops (word c List.mem_cons_self) _

theorem Spelled.stops (h : Spelled single cs ds)
    (begins : ∀ c, cs.head? = some c → c ≠ ' ' ∧ (single = true → isBreak c = false)) :
    Stops ds := by
  cases h with
  | last word =>
      cases cs with
      | nil => exact stops_nil
      | cons c cs =>
          have stops : Stops ((c :: cs).flatMap (written single) ++ []) := stops_words word
          rwa [List.append_nil] at stops
  | @spaces w s cs ds word nonempty spaces stops later =>
      cases w with
      | nil =>
          obtain ⟨x, s, rfl⟩ := List.exists_cons_of_ne_nil nonempty
          exact absurd (spaces x List.mem_cons_self) (begins x rfl).1
      | cons c w => exact stops_words word
  | @breaks w b bs cs ds kept word breaks stops later =>
      cases w with
      | nil =>
          have line := (breaks b List.mem_cons_self).isBreak.2
          rw [(begins b rfl).2 kept] at line
          cases line
      | cons c w => exact stops_words word

theorem not_isWritten_space : ¬IsWritten single ' ' := by
  cases single with
  | true => exact show ¬IsSolid ' ' by decide
  | false => exact not_not_intro rfl

/-- A space begins a gap, or belongs to the gap behind it. -/
theorem Spelled.space (h : Spelled single cs ds)
    (line : single = true → cs.head?.any isBreak = false) :
    Spelled single (' ' :: cs) (' ' :: ds) := by
  by_cases gap : cs.head? = some ' '
  · cases h with
    | last word =>
        exact absurd (word ' ' (List.mem_of_head? gap)) not_isWritten_space
    | @spaces w s cs ds word nonempty spaces stops later =>
        cases w with
        | nil =>
            have longer : ∀ c ∈ ' ' :: s, c = ' ' := List.forall_mem_cons.mpr ⟨rfl, spaces⟩
            exact .spaces word (List.cons_ne_nil ' ' s) longer stops later
        | cons c w =>
            obtain rfl : c = ' ' := Option.some.inj gap
            exact absurd (word ' ' List.mem_cons_self) not_isWritten_space
    | @breaks w b bs cs ds kept word breaks stops later =>
        cases w with
        | nil =>
            obtain rfl : b = ' ' := Option.some.inj gap
            exact absurd (breaks ' ' List.mem_cons_self).isBreak.1 (by decide)
        | cons c w =>
            obtain rfl : c = ' ' := Option.some.inj gap
            exact absurd (word ' ' List.mem_cons_self) not_isWritten_space
  · have stops : Stops ds := by
      apply h.stops
      intro c found
      rw [found] at gap line
      exact ⟨fun space => gap (congrArg some space), line⟩
    exact .spaces (List.forall_mem_nil _) (List.cons_ne_nil ' ' [])
      (List.forall_mem_singleton.mpr rfl) stops h

theorem IsWritten.not_break (h : IsWritten true c) : ¬isBreak c = true := Bool.eq_false_iff.mp h.2

/-- A break before other breaks, which are written in the same gap. -/
theorem Spelled.further (h : Spelled true cs ds) (line : cs.head?.any isBreak = true)
    (first : IsSeparator c) : Spelled true (c :: cs) (c :: ds) := by
  cases h with
  | last word =>
      cases cs with
      | nil => cases line
      | cons d cs => exact absurd line (word d List.mem_cons_self).not_break
  | @spaces w s cs ds word nonempty spaces stops later =>
      cases w with
      | nil =>
          obtain ⟨x, s, rfl⟩ := List.exists_cons_of_ne_nil nonempty
          obtain rfl : x = ' ' := spaces x List.mem_cons_self
          cases line
      | cons d w => exact absurd line (word d List.mem_cons_self).not_break
  | @breaks w b bs cs ds kept word breaks stops later =>
      cases w with
      | nil => exact .breaks kept word (List.forall_mem_cons.mpr ⟨first, breaks⟩) stops later
      | cons d w => exact absurd line (word d List.mem_cons_self).not_break

end Between

/-! What is written between quotes. -/

theorem spelled_double (cs : List Char) : Spelled false cs (cs.flatMap escapeChar) := by
  induction cs with
  | nil => exact .last (List.forall_mem_nil _)
  | cons c cs ih =>
      by_cases space : c = ' '
      · rw [space]
        exact ih.space nofun
      · exact ih.word space

theorem singleRest_true (cs : List Char) : singleRest true cs =
    if cs.head?.any isBreak then singleRest false cs else indentChars ++ singleRest false cs := by
  cases cs with
  | nil => rfl
  | cons c cs =>
      cases line : isBreak c <;> simp [singleRest, line]

theorem spelled_single {cs : List Char} (visible : ∀ c ∈ cs, isVisible c = true) (one : '\n' ∉ cs)
    (ends : followed (· == ' ') isBreak cs = false)
    (begins : followed isBreak (· == ' ') cs = false) : Spelled true cs (singleRest false cs) := by
  induction cs with
  | nil => exact .last (List.forall_mem_nil _)
  | cons c cs ih =>
      obtain ⟨shown, others⟩ := List.forall_mem_cons.mp visible
      obtain ⟨newline, alone⟩ := not_or.mp (mt List.mem_cons.mpr one)
      have rest := ih others alone (followed_tail ends) (followed_tail begins)
      cases line : isBreak c with
      | true =>
          have first := (separator_of_visible shown line).resolve_left (Ne.symm newline)
          have behind := followed_head begins line
          rw [singleRest, if_pos line, singleRest_true]
          cases next : cs.head?.any isBreak with
          | true => exact rest.further next first
          | false =>
              have stops : Stops (singleRest false cs) := by
                apply rest.stops
                intro d found
                rw [found] at next behind
                exact ⟨beq_eq_false_iff_ne.mp behind, fun _ => next⟩
              have one : ∀ d ∈ [c], IsSeparator d := List.forall_mem_singleton.mpr first
              exact .breaks rfl (List.forall_mem_nil _) one stops rest
      | false =>
          have same : singleRest false (c :: cs) = written true c ++ singleRest false cs := by
            simp [singleRest, line, written]
          rw [same]
          rcases solid_of_visible shown line with rfl | solid
          · exact rest.space fun _ => followed_head ends rfl
          · exact rest.word solid

end AssessmentPlans.Yaml
