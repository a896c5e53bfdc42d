import AssessmentPlans.Proofs.Yaml.Gap
import AssessmentPlans.Yaml.Lexer

/-! The lexer step by step, and what it does at the end of a scalar. Whether a scalar is held
back until the next token has been read depends on its style, its place and its length; the
tokens and the number of steps do not. -/
namespace AssessmentPlans.Yaml
namespace Lexer

section Steps

variable {a b c lx lx₁ lx' : Lexer} {m n : Nat} {t : Token} {ts us queue : List Token}

/-- So many steps give these tokens and lead to that state. -/
def Steps (n : Nat) (lx : Lexer) (ts : List Token) (lx' : Lexer) : Prop :=
  ∀ fuel, tokens (fuel + n) lx = (ts ++ (tokens fuel lx').1, (tokens fuel lx').2)

theorem Steps.trans (h : Steps m a ts b) (h' : Steps n b us c) : Steps (m + n) a (ts ++ us) c := by
  intro fuel
  rw [Nat.add_comm m n, ← Nat.add_assoc, h, h', List.append_assoc]

theorem Steps.fetch (empty : lx.queue = []) (more : lx.ended = false) (h : lx.fetch = .ok lx') :
    Steps 1 lx [] lx' := by
  intro fuel
  rw [tokens]
  simp [empty, more, h]

theorem Steps.held (waiting : lx.queue = t :: queue) (fresh : lx.dropStale = .ok lx₁)
    (held : lx₁.heldBack = true) (h : lx₁.fetch = .ok lx') : Steps 1 lx [] lx' := by
  intro fuel
  rw [tokens]
  simp [waiting, fresh, held, h]

theorem Steps.emit (waiting : lx.queue = t :: queue) (fresh : lx.dropStale = .ok lx₁)
    (free : lx₁.heldBack = false) :
    Steps 1 lx [t] { lx₁ with queue, taken := lx₁.taken + 1 } := by
  intro fuel
  rw [tokens]
  simp [waiting, fresh, free]

end Steps

/-- Within the block at the first column, outside flow collections. -/
def inBlock (cursor : Cursor) (queue : List Token) (taken : Nat) (keyAllowed : Bool)
    (candidate : Option Candidate) : Lexer :=
  ⟨cursor, queue, taken, [0], keyAllowed, candidate, [], false⟩

/-- The lexer has read all of a line, with its end or up to it. What might have been a key in it
can be given up. -/
inductive Awaits (rest : List Char) : Lexer → Prop
  | here {i l queue taken candidate} (old : ∀ k ∈ candidate, k.required = false ∧ k.line < l) :
      Awaits rest (inBlock ⟨rest, i, l, 0⟩ queue taken true candidate)
  | behind {i l k queue taken candidate} (old : ∀ k ∈ candidate, k.required = false ∧ k.line ≤ l) :
      Awaits rest (inBlock ⟨'\n' :: rest, i, l, k⟩ queue taken false candidate)

/-- A line that begins with a token. -/
def Begins (rest : List Char) : Prop :=
  ∀ c, rest.head? = some c → IsSolid c ∧ c ≠ '#' ∧ c ≠ '\ufeff'

section Lines

variable {rest : List Char} {lx : Lexer} {t : Token} {c : Cursor} {queue : List Token}
  {candidate : Option Candidate} {fuel i l k taken : Nat} {keyAllowed : Bool}

/-- Where a token begins there is no space. -/
theorem skipSpace_begins (h : Begins lx.cursor.rest) : lx.skipSpace fuel = lx := by
  cases fuel with
  | zero => rfl
  | succ fuel =>
      obtain ⟨⟨rest, i, l, k⟩, queue, taken, indents, keyAllowed, candidate, outer, ended⟩ := lx
      rw [skipSpace]
      cases rest with
      | nil => simp [Cursor.skipWhile, Cursor.span, Cursor.skipComment, Cursor.standsBreak]
      | cons x cs =>
          obtain ⟨⟨gap, brk⟩, hash, mark⟩ := h x rfl
          simp only [isGap, Bool.or_eq_false_iff, beq_eq_false_iff_ne] at gap
          simp [Cursor.skipWhile, Cursor.span, Cursor.skipComment, Cursor.standsBreak, gap, brk,
            hash, mark]

/-- The end of a line is passed over, and a key may begin again. -/
theorem skipSpace_newline (h : Begins rest) :
    skipSpace (fuel + 1) (inBlock ⟨'\n' :: rest, i, l, k⟩ queue taken keyAllowed candidate) =
      inBlock ⟨rest, i + 1, l + 1, 0⟩ queue taken true candidate := by
  have next :
      skipSpace (fuel + 1) (inBlock ⟨'\n' :: rest, i, l, k⟩ queue taken keyAllowed candidate) =
        skipSpace fuel (inBlock ⟨rest, i + 1, l + 1, 0⟩ queue taken true candidate) := by
    rw [skipSpace]
    simp [inBlock, inFlow, Cursor.skipWhile, Cursor.span, Cursor.skipComment, Cursor.standsBreak,
      Cursor.skipBreak, Cursor.readBreak_newline, isBreak]
  rw [next, skipSpace_begins h]

/-- A candidate from an earlier line is given up. -/
theorem dropStale_old (old : ∀ k ∈ candidate, k.required = false ∧ k.line < c.line) :
    (inBlock c queue taken keyAllowed candidate).dropStale =
      .ok (inBlock c queue taken keyAllowed none) := by
  cases candidate with
  | none => rfl
  | some k =>
      obtain ⟨free, line⟩ := old k rfl
      simp [dropStale, inBlock, refresh, isStale, line, free, bind, Except.bind, pure, Except.pure]

theorem closeBlocks_inBlock (n : Nat) :
    (inBlock c queue taken keyAllowed candidate).closeBlocks n =
      inBlock c queue taken keyAllowed candidate := by
  have outside : ¬(n : Int) < 0 := Int.not_lt.mpr (Int.natCast_nonneg n)
  simp [closeBlocks, inBlock, inFlow, outside]

/-- Going on to the next token, part by part. -/
theorem fetch_parts {lx₁ lx₂ lx₃ : Lexer} (space : lx.skipSpace (lx.cursor.rest.length + 1) = lx₁)
    (fresh : lx₁.dropStale = .ok lx₂) (closed : lx₂.closeBlocks lx₂.cursor.column = lx₃) :
    lx.fetch = lx₃.fetchToken := by
  rw [fetch, space, fresh]
  exact congrArg fetchToken closed

theorem fetch_of_skipSpace (space : lx.skipSpace (lx.cursor.rest.length + 1) =
      inBlock c queue taken keyAllowed candidate)
    (old : ∀ k ∈ candidate, k.required = false ∧ k.line < c.line) :
    lx.fetch = (inBlock c queue taken keyAllowed none).fetchToken :=
  fetch_parts space (dropStale_old old) (closeBlocks_inBlock c.column)

/-- The next token begins the next line. -/
theorem Awaits.fetch (h : Awaits rest lx) (begins : Begins rest) : ∃ i l,
    lx.fetch = (inBlock ⟨rest, i, l, 0⟩ lx.queue lx.taken true none).fetchToken := by
  cases h with
  | @here i l queue taken candidate old =>
      exact ⟨i, l, fetch_of_skipSpace (skipSpace_begins begins) old⟩
  | @behind i l k queue taken candidate old =>
      have later : ∀ k ∈ candidate, k.required = false ∧ k.line < l + 1 :=
        fun k found => ⟨(old k found).1, Nat.lt_succ_of_le (old k found).2⟩
      exact ⟨i + 1, l + 1, fetch_of_skipSpace (skipSpace_newline begins) later⟩

theorem Awaits.dropStale (h : Awaits rest lx) : ∃ lx₁, lx.dropStale = .ok lx₁ ∧
    Awaits rest lx₁ ∧ lx₁.queue = lx.queue ∧ lx₁.taken = lx.taken := by
  cases h with
  | here old => exact ⟨_, dropStale_old old, .here nofun, rfl, rfl⟩
  | @behind i l k queue taken candidate old =>
      cases candidate with
      | none => exact ⟨_, dropStale_old nofun, .behind nofun, rfl, rfl⟩
      | some key =>
          have kept (stale : isStale ⟨'\n' :: rest, i, l, k⟩ key = false) :
              (inBlock ⟨'\n' :: rest, i, l, k⟩ queue taken false (some key)).dropStale =
                .ok (inBlock ⟨'\n' :: rest, i, l, k⟩ queue taken false (some key)) := by
            simp [Lexer.dropStale, inBlock, refresh, stale, bind, Except.bind, pure, Except.pure]
          have dropped (stale : isStale ⟨'\n' :: rest, i, l, k⟩ key = true) :
              (inBlock ⟨'\n' :: rest, i, l, k⟩ queue taken false (some key)).dropStale =
                .ok (inBlock ⟨'\n' :: rest, i, l, k⟩ queue taken false none) := by
            simp [Lexer.dropStale, inBlock, refresh, stale, (old key rfl).1, bind, Except.bind,
              pure, Except.pure]
          cases stale : isStale ⟨'\n' :: rest, i, l, k⟩ key with
          | false => exact ⟨_, kept stale, .behind old, rfl, rfl⟩
          | true => exact ⟨_, dropped stale, .behind nofun, rfl, rfl⟩

theorem Awaits.emit (h : Awaits rest lx) (queue : List Token) (taken : Nat) :
    Awaits rest { lx with queue, taken } := by
  cases h with
  | here old => exact .here old
  | behind old => exact .behind old

theorem Awaits.going (h : Awaits rest lx) : lx.ended = false := by
  cases h <;> rfl

/-- The last token of a line comes out when the next one has been read, or before that. -/
theorem Awaits.pass {after : Nat → Nat → List Token → Nat → Lexer} (h : Awaits rest lx)
    (one : lx.queue = [t]) (begins : Begins rest)
    (next : ∀ i l queue taken,
      (inBlock ⟨rest, i, l, 0⟩ queue taken true none).fetchToken = .ok (after i l queue taken))
    (emit : ∀ i l taken, Steps 1 (after i l [t] taken) [t] (after i l [] (taken + 1))) :
    ∃ i l, Steps 2 lx [t] (after i l [] (lx.taken + 1)) := by
  obtain ⟨lx₁, fresh, waits, queue, taken⟩ := h.dropStale
  cases held : lx₁.heldBack with
  | true =>
      obtain ⟨i, l, fetched⟩ := waits.fetch begins
      rw [queue, taken, one, next] at fetched
      exact ⟨i, l, (Steps.held one fresh held fetched).trans (emit i l lx.taken)⟩
  | false =>
      have behind := waits.emit [] (lx₁.taken + 1)
      obtain ⟨i, l, fetched⟩ := behind.fetch begins
      have last := Steps.fetch rfl behind.going (fetched.trans (next i l [] (lx₁.taken + 1)))
      have both := (Steps.emit one fresh held).trans last
      rw [taken] at both
      exact ⟨i, l, both⟩

end Lines

end Lexer
end AssessmentPlans.Yaml
