import AssessmentPlans.Proofs.Yaml.Block
import AssessmentPlans.Proofs.Yaml.Lexer
import AssessmentPlans.Proofs.Yaml.Plain
import AssessmentPlans.Proofs.Yaml.Quoted

/-! What is written as a scalar is read as one token with the same text. -/
namespace AssessmentPlans.Yaml

/-! The style of a text tells what it holds. -/

section Style

variable {s : String} {cs : List Char}

theorem styleFor_plain (h : styleFor s = .plain) : s.toList ≠ [] ∧ suitsPlain s.toList = true := by
  rw [styleFor] at h
  split at h
  · split at h <;> cases h
  · split at h
    case isTrue plain =>
      obtain ⟨free, suits⟩ := Bool.and_eq_true_iff.mp plain
      refine ⟨fun empty => ?_, suits⟩
      rw [String.toList_eq_nil_iff] at empty
      rw [empty] at free
      cases free
    case isFalse => split at h <;> cases h

theorem styleFor_single (h : styleFor s = .single) :
    '\n' ∉ s.toList ∧ suitsSingle s.toList = true := by
  rw [styleFor] at h
  split at h
  · split at h <;> cases h
  case isFalse one =>
    split at h
    · cases h
    · split at h
      case isTrue suits => exact ⟨by simpa using one, suits⟩
      case isFalse => cases h

theorem styleFor_literal (h : styleFor s = .literal) :
    '\n' ∈ s.toList ∧ suitsLiteral s.toList = true := by
  rw [styleFor] at h
  split at h
  case isTrue lines =>
    split at h
    case isTrue suits => exact ⟨by simpa using lines, suits⟩
    case isFalse => cases h
  · split at h
    · cases h
    · split at h <;> cases h

theorem styleFor_folded : styleFor s ≠ .folded := by
  intro h
  rw [styleFor] at h
  split at h
  · split at h <;> cases h
  · split at h
    · cases h
    · split at h <;> cases h

/-- Only between double quotes there is anything to escape. -/
theorem styleFor_visible {style : ScalarStyle} (h : styleFor s = style) (other : style ≠ .double) :
    followed (· == ' ') isBreak s.toList = false ∧ ∀ c ∈ s.toList, isVisible c = true := by
  have free : needsEscapes s.toList = false := by
    cases style with
    | plain =>
        have suits := (styleFor_plain h).2
        simp only [suitsPlain, Bool.and_eq_true, Bool.not_eq_true'] at suits
        exact suits.2
    | single =>
        have suits := (styleFor_single h).2
        rw [suitsSingle, Bool.and_eq_true, Bool.not_eq_true', Bool.not_eq_true'] at suits
        exact suits.2
    | double => exact absurd rfl other
    | literal =>
        have suits := (styleFor_literal h).2
        rw [suitsLiteral, Bool.and_eq_true, Bool.not_eq_true'] at suits
        exact suits.2
    | folded => exact absurd h styleFor_folded
  rw [needsEscapes, Bool.or_eq_false_iff] at free
  exact ⟨free.1, List.all_eq_true.mp (Bool.not_eq_eq_eq_not.mp free.2)⟩

end Style

namespace Lexer

section Scalar

variable {rest cs : List Char} {s : String} {x : Char} {i l k taken : Nat} {keyAllowed : Bool}

/-- The lexer has read that token, and then the rest of its line. -/
def Reaches (rest : List Char) (t : Token) (taken : Nat) (lx : Except Fault Lexer) : Prop :=
  ∃ lx', lx = .ok lx' ∧ Awaits rest lx' ∧ lx'.queue = [t] ∧ lx'.taken = taken

theorem fetch_inner (solid : IsSolid x) (hash : x ≠ '#') :
    (inBlock ⟨' ' :: x :: cs, i, l, k⟩ [] taken keyAllowed none).fetch =
      (inBlock ⟨x :: cs, i + 1, l, k + 1⟩ [] taken keyAllowed none).fetchToken := by
  obtain ⟨gap, brk⟩ := solid
  simp only [isGap, Bool.or_eq_false_iff, beq_eq_false_iff_ne] at gap
  have space : skipSpace ((' ' :: x :: cs).length + 1)
      (inBlock ⟨' ' :: x :: cs, i, l, k⟩ [] taken keyAllowed none) =
      inBlock ⟨x :: cs, i + 1, l, k + 1⟩ [] taken keyAllowed none := by
    rw [skipSpace]
    simp [inBlock, Cursor.skipWhile, Cursor.span, Cursor.skipComment, Cursor.standsBreak, gap, brk,
      hash]
  exact fetch_of_skipSpace space (by simp)

/-- Inside a line only a candidate that can be given up is noted. -/
theorem noteCandidate_inner : ∃ candidate, (∀ k ∈ candidate, k.required = false ∧ k.line = l) ∧
    (inBlock ⟨cs, i, l, k + 1⟩ [] taken keyAllowed none).noteCandidate =
      .ok (inBlock ⟨cs, i, l, k + 1⟩ [] taken keyAllowed candidate) := by
  cases keyAllowed with
  | false => exact ⟨none, nofun, rfl⟩
  | true =>
      refine ⟨some ⟨false, taken, i, l, k + 1⟩, ?_, ?_⟩
      · rintro _ ⟨⟩
        exact ⟨rfl, rfl⟩
      · simp [noteCandidate, inBlock, inFlow, indent, dropCandidate, bind, Except.bind, pure,
          Except.pure]
        omega

theorem fetchToken_quote (single : Bool) :
    (inBlock ⟨quoteOf single :: cs, i, l, k + 1⟩ [] taken keyAllowed none).fetchToken =
      (inBlock ⟨quoteOf single :: cs, i, l, k + 1⟩ [] taken keyAllowed none).fetchNode
        (readQuotedToken single) := by
  cases single <;> simp [fetchToken, inBlock, Cursor.standsMark, quoteOf]

theorem fetchToken_spelled {single : Bool} {ds : List Char} (h : Spelled single cs ds) :
    Reaches rest (.scalar (String.ofList cs) (if single then .single else .double)) taken
      (inBlock ⟨quoteOf single :: (ds ++ quoteOf single :: '\n' :: rest), i, l, k + 1⟩ [] taken
        keyAllowed none).fetchToken := by
  obtain ⟨candidate, old, note⟩ := @noteCandidate_inner
    (quoteOf single :: (ds ++ quoteOf single :: '\n' :: rest)) i l k taken keyAllowed
  obtain ⟨i', l', k', down, _, read⟩ := @readQuoted_spelled single cs ds ('\n' :: rest) i l (k + 1)
    h (by simp)
  have older : ∀ k ∈ candidate, k.required = false ∧ k.line ≤ l' :=
    fun k found => ⟨(old k found).1, (old k found).2 ▸ down⟩
  have fetched : (inBlock ⟨quoteOf single :: (ds ++ quoteOf single :: '\n' :: rest), i, l, k + 1⟩ []
      taken keyAllowed none).fetchNode (readQuotedToken single) =
      .ok (inBlock ⟨'\n' :: rest, i', l', k'⟩
        [.scalar (String.ofList cs) (if single then .single else .double)] taken false
        candidate) := by
    rw [fetchNode, note]
    simp [bind, Except.bind, readQuotedToken, inBlock, read, push, pure, Except.pure]
  exact ⟨_, (fetchToken_quote single).trans fetched, .behind older, rfl, rfl⟩

theorem literal_begins (cs rest : List Char) : ∃ ds,
    literalHeader cs ++ '\n' :: literalRest true cs ++ closing cs ++ rest = '|' :: ds := by
  rw [literalHeader_eq]
  exact ⟨_, rfl⟩

theorem fetchToken_literal (filled : cs ≠ []) (visible : ∀ c ∈ cs, isVisible c = true)
    (stops : Stops rest) : Reaches rest (.scalar (String.ofList cs) .literal) taken
      (inBlock ⟨literalHeader cs ++ '\n' :: literalRest true cs ++ closing cs ++ rest, i, l, k + 1⟩
        [] taken keyAllowed none).fetchToken := by
  obtain ⟨i', l', read⟩ := @readBlock_literal cs rest i l (k + 1) filled visible stops
  obtain ⟨ds, layout⟩ := literal_begins cs rest
  rw [layout] at read ⊢
  have block : (inBlock ⟨'|' :: ds, i, l, k + 1⟩ [] taken keyAllowed none).fetchToken =
      (inBlock ⟨'|' :: ds, i, l, k + 1⟩ [] taken keyAllowed none).fetchBlock true := by
    simp [fetchToken, inBlock, Cursor.standsMark, inFlow]
  have fetched : (inBlock ⟨'|' :: ds, i, l, k + 1⟩ [] taken keyAllowed none).fetchBlock true =
      .ok (inBlock ⟨rest, i', l', 0⟩ [.scalar (String.ofList cs) .literal] taken true none) := by
    simp [fetchBlock, inBlock, dropCandidate, indent, read, push, bind, Except.bind, pure,
      Except.pure]
  exact ⟨_, block.trans fetched, .here (by simp), rfl, rfl⟩

/-- What a plain scalar begins with begins nothing else. -/
theorem fetchToken_words {c : Char} (begins : beginsPlain (c :: cs) = true) (solid : IsSolid c) :
    (inBlock ⟨c :: (cs ++ '\n' :: rest), i, l, k + 1⟩ [] taken keyAllowed none).fetchToken =
      (inBlock ⟨c :: (cs ++ '\n' :: rest), i, l, k + 1⟩ [] taken keyAllowed none).fetchPlain := by
  simp only [beginsPlain, Bool.and_eq_true, Bool.not_eq_true'] at begins
  obtain ⟨⟨_, indicator⟩, sign⟩ := begins
  simp only [String.reduceToList, List.contains_eq_mem, decide_eq_false_iff_not, List.mem_cons,
    List.not_mem_nil, or_false, not_or] at indicator
  obtain ⟨gap, brk⟩ := solid
  obtain ⟨d, ds, layout, same⟩ : ∃ d ds, cs ++ '\n' :: rest = d :: ds ∧
      endsWord (some d) = endsWord cs.head? := by
    cases cs <;> exact ⟨_, _, rfl, rfl⟩
  rw [layout]
  cases ends : endsWord cs.head? with
  | true =>
      simp only [ends, Bool.and_true, Bool.or_eq_false_iff, beq_eq_false_iff_ne] at sign
      simp [fetchToken, inBlock, inFlow, Cursor.standsMark, Cursor.standsPlain, isIndicator,
        isFlowMark, gap, brk, indicator, sign]
  | false =>
      rw [ends] at same
      have quiet := (endsWord_some.mp same).1
      by_cases sign : c = '-' ∨ c = '?' ∨ c = ':'
      · rcases sign with rfl | rfl | rfl
        all_goals simp [fetchToken, inBlock, inFlow, Cursor.standsMark, Cursor.standsPlain,
          isIndicator, isFlowMark, gap, brk, same, quiet]
      · rw [not_or, not_or] at sign
        simp [fetchToken, inBlock, inFlow, Cursor.standsMark, Cursor.standsPlain, isIndicator,
          isFlowMark, gap, brk, indicator, sign]

theorem fetchToken_plain (filled : cs ≠ []) (suits : suitsPlain cs = true) (stops : Stops rest) :
    Reaches rest (.scalar (String.ofList cs) .plain) taken
      (inBlock ⟨cs ++ '\n' :: rest, i, l, k + 1⟩ [] taken keyAllowed none).fetchToken := by
  obtain ⟨candidate, old, note⟩ := @noteCandidate_inner (cs ++ '\n' :: rest) i l k taken keyAllowed
  have text := plainText_of_suits filled suits
  have read := @readPlain_text cs rest i l (k + 1) text (Nat.succ_pos k) stops
  have older : ∀ k ∈ candidate, k.required = false ∧ k.line < l + 1 :=
    fun k found => ⟨(old k found).1, Nat.lt_succ_of_le (Nat.le_of_eq (old k found).2)⟩
  have plain : (inBlock ⟨cs ++ '\n' :: rest, i, l, k + 1⟩ [] taken keyAllowed none).fetchToken =
      (inBlock ⟨cs ++ '\n' :: rest, i, l, k + 1⟩ [] taken keyAllowed none).fetchPlain := by
    obtain ⟨c, cs, rfl⟩ := List.exists_cons_of_ne_nil filled
    have solid : IsSolid c := text.stops [] c rfl
    simp only [suitsPlain, Bool.and_eq_true] at suits
    exact fetchToken_words suits.1.1.1.1 solid
  have fetched : (inBlock ⟨cs ++ '\n' :: rest, i, l, k + 1⟩ [] taken keyAllowed none).fetchPlain =
      .ok (inBlock ⟨rest, i + cs.length + 1, l + 1, 0⟩ [.scalar (String.ofList cs) .plain] taken
        true candidate) := by
    rw [fetchPlain, note]
    simp [bind, Except.bind, inBlock, inFlow, indent, read, push, pure, Except.pure]
  exact ⟨_, plain.trans fetched, .here older, rfl, rfl⟩

end Scalar

/-- A scalar behind a space, with the end of its line. -/
theorem fetch_scalar {rest : List Char} (s : String) (begins : Begins rest) (i l k taken : Nat)
    (keyAllowed : Bool) : Reaches rest (.scalar s (styleFor s)) taken
      (inBlock ⟨' ' :: (scalarChars s ++ rest), i, l, k⟩ [] taken keyAllowed none).fetch := by
  have stops : Stops rest := fun c found => (begins c found).1
  have same : String.ofList s.toList = s := String.ofList_toList
  rw [scalarChars]
  cases style : styleFor s with
  | plain =>
      obtain ⟨filled, suits⟩ := styleFor_plain style
      have token := @fetchToken_plain rest s.toList (i + 1) l k taken keyAllowed filled suits stops
      have text := plainText_of_suits filled suits
      obtain ⟨c, cs, layout, space, hash⟩ := text.first
      have solid : IsSolid c := text.stops [] c (by simp [layout])
      rw [same, layout] at token
      simp only [layout, List.append_assoc, List.cons_append, List.nil_append]
      rwa [fetch_inner solid hash]
  | single =>
      obtain ⟨one, suits⟩ := styleFor_single style
      rw [suitsSingle, Bool.and_eq_true, Bool.not_eq_true', Bool.not_eq_true'] at suits
      obtain ⟨ends, visible⟩ := styleFor_visible style nofun
      have token := @fetchToken_spelled rest s.toList (i + 1) l k taken keyAllowed true _
        (spelled_single visible one ends suits.1)
      rw [same] at token
      simp only [singleChars, List.append_assoc, List.cons_append, List.nil_append]
      rwa [fetch_inner (by decide) (by decide)]
  | double =>
      have token := @fetchToken_spelled rest s.toList (i + 1) l k taken keyAllowed false _
        (spelled_double s.toList)
      rw [same] at token
      simp only [doubleChars, List.append_assoc, List.cons_append, List.nil_append]
      rwa [fetch_inner (by decide) (by decide)]
  | literal =>
      obtain ⟨lines, _⟩ := styleFor_literal style
      obtain ⟨_, visible⟩ := styleFor_visible style nofun
      have token := @fetchToken_literal rest s.toList (i + 1) l k taken keyAllowed
        (List.ne_nil_of_mem lines) visible stops
      rw [same] at token
      change Reaches rest _ taken (inBlock ⟨' ' :: (literalHeader s.toList ++ '\n' ::
        literalRest true s.toList ++ closing s.toList ++ rest), i, l, k⟩ [] taken keyAllowed
        none).fetch
      obtain ⟨ds, layout⟩ := literal_begins s.toList rest
      rw [layout] at token ⊢
      rwa [fetch_inner (by decide) (by decide)]
  | folded => exact absurd style styleFor_folded

end Lexer
end AssessmentPlans.Yaml
