import AssessmentPlans.Proofs.Yaml.Allowed
import AssessmentPlans.Proofs.Yaml.Scalar

/-! The tokens of a mapping with a text and a list of texts. -/
namespace AssessmentPlans.Yaml
open Lexer

/-- A name that can be a key. -/
structure IsKey (w : List Char) : Prop extends IsName w where
  short : w.length ≤ keyLimit
  allowed : Allowed w

theorem IsKey.of_all {w : List Char}
    (all : w.all (fun c => decide (IsSolid c) && c != ':' && isAllowed c) = true)
    (first : w.head?.any (fun c => !isIndicator c && c != '.' && c != '\ufeff') = true)
    (short : w.length ≤ keyLimit) : IsKey w := by
  have each (c : Char) (hc : c ∈ w) : (IsSolid c ∧ c ≠ ':') ∧ isAllowed c = true := by
    simpa only [Bool.and_eq_true, decide_eq_true_eq, bne_iff_ne] using List.all_eq_true.mp all c hc
  refine ⟨⟨fun c hc => (each c hc).1.1, fun colon => (each ':' colon).1.2 rfl, ?_⟩, short,
    fun c hc => (each c hc).2⟩
  cases w with
  | nil => cases first
  | cons c w =>
      simp only [List.head?_cons, Option.any_some, Bool.and_eq_true, Bool.not_eq_true',
        bne_iff_ne] at first
      exact ⟨c, w, rfl, first.1.1, first.1.2, first.2⟩

section Steps

variable {lx : Lexer} {t : Token} {ts us queue : List Token} {m n : Nat}

/-- From here on there are these tokens and no fault. -/
def Finishes (n : Nat) (lx : Lexer) (ts : List Token) : Prop :=
  ∀ fuel, tokens (fuel + n) lx = (ts, none)

theorem finishes_of_steps {lx' : Lexer} (h : Steps m lx ts lx') (h' : Finishes n lx' us) :
    Finishes (m + n) lx (ts ++ us) := by
  intro fuel
  rw [Nat.add_comm m n, ← Nat.add_assoc, h, h']

theorem Finishes.mono (h : Finishes m lx ts) (enough : m ≤ n) : Finishes n lx ts := by
  intro fuel
  obtain ⟨d, rfl⟩ := Nat.exists_eq_add_of_le' enough
  rw [← Nat.add_assoc]
  exact h (fuel + d)

/-- Where nothing may become a key any more, the next token comes out. -/
theorem steps_emit (waiting : lx.queue = t :: queue) (free : lx.candidate = none)
    (outer : lx.outer = [] ∨ lx.outer = [none]) :
    Steps 1 lx [t] { lx with queue, taken := lx.taken + 1 } := by
  have fresh : lx.dropStale = .ok lx := by
    cases lx
    rcases outer with rfl | rfl <;> cases free <;> rfl
  apply Steps.emit waiting fresh
  rcases outer with none | none <;> simp [heldBack, free, none]

end Steps

/-! What stands at the beginning of a line. -/

section Lines

variable {lx : Lexer} {t : Token} {queue : List Token} {cs : List Char} {i l k taken : Nat}
  {keyAllowed : Bool}

/-- The end of the text. -/
def finished (i l : Nat) (queue : List Token) (taken : Nat) : Lexer :=
  ⟨⟨[], i, l, 0⟩, queue ++ [.blockEnd, .streamEnd], taken, [], false, none, [], true⟩

theorem fetchToken_end : (inBlock ⟨[], i, l, 0⟩ queue taken true none).fetchToken =
    .ok (finished i l queue taken) := by
  simp [fetchToken, inBlock, fetchEnd, closeBlocks, inFlow, dropCandidate, push, finished, bind,
    Except.bind, pure, Except.pure]

theorem finishes_end : Finishes 2 (finished i l [] taken) [.blockEnd, .streamEnd] := by
  have first : Steps 1 (finished i l [] taken) [.blockEnd] _ := steps_emit rfl rfl (.inl rfl)
  have second : Steps 1 { finished i l [] taken with queue := [.streamEnd], taken := taken + 1 }
      [.streamEnd] _ := steps_emit rfl rfl (.inl rfl)
  intro fuel
  rw [(first.trans second) fuel]
  cases fuel <;> rfl

theorem fetchToken_entry : (inBlock ⟨'-' :: ' ' :: cs, i, l, 0⟩ queue taken true none).fetchToken =
    .ok (inBlock ⟨' ' :: cs, i + 1, l, 1⟩ (queue ++ [.blockEntry]) taken true none) := by
  simp [fetchToken, inBlock, Cursor.standsMark, fetchBlockEntry, endsWord, isGap, openBlock, inFlow,
    indent, dropCandidate, push, bind, Except.bind, pure, Except.pure]

/-- The entries of a list, as they are written. -/
def entriesChars (ids : List String) : List Char :=
  ids.flatMap fun id => '-' :: ' ' :: scalarChars id

def entryTokens (ids : List String) : List Token :=
  ids.flatMap fun id => [.blockEntry, .scalar id (styleFor id)]

theorem begins_entries (ids : List String) : Begins (entriesChars ids) := by
  cases ids with
  | nil => exact nofun
  | cons id ids =>
      rintro _ ⟨⟩
      decide

/-- The entries of a list up to the end of the text, with what stands before them. -/
theorem finishes_entries (ids : List String) (h : Awaits (entriesChars ids) lx)
    (one : lx.queue = [t]) : Finishes (4 * ids.length + 4) lx
      (t :: (entryTokens ids ++ [.blockEnd, .streamEnd])) := by
  induction ids generalizing lx t with
  | nil =>
      obtain ⟨i, l, passed⟩ := h.pass one (begins_entries []) (fun _ _ _ _ => fetchToken_end)
        fun _ _ _ => steps_emit rfl rfl (.inl rfl)
      exact finishes_of_steps passed finishes_end
  | cons id ids ih =>
      obtain ⟨i, l, passed⟩ := h.pass one (begins_entries _) (fun _ _ _ _ => fetchToken_entry)
        fun _ _ _ => steps_emit rfl rfl (.inl rfl)
      have entry : Steps 1 (inBlock ⟨' ' :: (scalarChars id ++ entriesChars ids), i + 1, l, 1⟩
          [.blockEntry] (lx.taken + 1) true none) [.blockEntry] _ := steps_emit rfl rfl (.inl rfl)
      obtain ⟨lx', fetched, waits, queue, taken⟩ := fetch_scalar id (begins_entries ids) (i + 1) l 1
        (lx.taken + 2) true
      have scalar := Steps.fetch rfl rfl fetched
      have whole := finishes_of_steps (passed.trans (entry.trans scalar)) (ih waits queue)
      have count : 2 + (1 + 1) + (4 * ids.length + 4) = 4 * (id :: ids).length + 4 := by
        rw [List.length_cons]
        omega
      rw [← count]
      exact whole

/-! The name of a member. -/

/-- Before the first member no block is open. -/
def openBlocks (first : Bool) : List Int := if first then [] else [0]

/-- The lexer has read the name of a member, up to the colon. -/
def named (first : Bool) (w cs : List Char) (i l : Nat) (queue : List Token) (taken : Nat) :
    Lexer :=
  ⟨⟨':' :: cs, i + w.length, l, w.length⟩, queue ++ [.scalar (String.ofList w) .plain], taken,
    openBlocks first, false, some ⟨!first, taken + queue.length, i, l, 0⟩, [], false⟩

section Name

variable {first : Bool} {w : List Char} {x : Char}

theorem fetchToken_name (h : IsName w) (ends : endsWord (some x) = true) :
    (Lexer.mk ⟨w ++ ':' :: x :: cs, i, l, 0⟩ queue taken (openBlocks first) true none []
      false).fetchToken = .ok (named first w (x :: cs) i l queue taken) := by
  obtain ⟨c, rest, same, free, dot, _⟩ := h.first
  obtain ⟨gap, brk⟩ := h.solid c (by simp [same])
  have read (parent : Int) : readPlain false parent ⟨w ++ ':' :: x :: cs, i, l, 0⟩ = _ :=
    readPlain_name h ends
  have plain : (Lexer.mk ⟨w ++ ':' :: x :: cs, i, l, 0⟩ queue taken (openBlocks first) true none []
        false).fetchToken =
      (Lexer.mk ⟨w ++ ':' :: x :: cs, i, l, 0⟩ queue taken (openBlocks first) true none []
        false).fetchPlain := by
    have other := free
    simp only [isIndicator, isFlowMark, String.reduceToList, Bool.or_eq_false_iff,
      beq_eq_false_iff_ne, List.contains_eq_mem, decide_eq_false_iff_not, List.mem_cons,
      List.not_mem_nil, or_false, not_or] at other
    simp [fetchToken, inFlow, same, Cursor.standsMark, Cursor.standsPlain, gap, brk, free, other,
      dot]
  rw [plain]
  cases first <;> simp [fetchPlain, noteCandidate, inFlow, indent, dropCandidate, read, push, named,
    openBlocks, bind, Except.bind, pure, Except.pure]

theorem dropStale_named (short : w.length ≤ keyLimit) :
    (named first w cs i l queue taken).dropStale = .ok (named first w cs i l queue taken) := by
  simp [dropStale, named, refresh, isStale, short, bind, Except.bind, pure, Except.pure]

/-- What the colon behind a name makes of it: a key, and of the first key a mapping. -/
def keyed (first : Bool) (w : List Char) : List Token :=
  (if first then [.blockMappingStart] else []) ++ [.key, .scalar (String.ofList w) .plain, .value]

theorem steps_named (short : w.length ≤ keyLimit) (ends : endsWord (some x) = true) :
    Steps 1 (named first w (x :: cs) i l [] taken) []
      (inBlock ⟨x :: cs, i + w.length + 1, l, w.length + 1⟩ (keyed first w) taken false none) := by
  have fresh : (named first w (x :: cs) i l [] taken).dropStale =
      .ok (named first w (x :: cs) i l [] taken) := dropStale_named short
  have held : (named first w (x :: cs) i l [] taken).heldBack = true := by
    simp [heldBack, named]
  have begins : Begins (named first w (x :: cs) i l [] taken).cursor.rest := by
    rintro _ ⟨⟩
    decide
  have closed : (named first w (x :: cs) i l [] taken).closeBlocks w.length =
      named first w (x :: cs) i l [] taken := by
    have inside : ¬(w.length : Int) < 0 := Int.not_lt.mpr (Int.natCast_nonneg _)
    cases first <;> simp [closeBlocks, named, inFlow, openBlocks, inside]
  have value : (named first w (x :: cs) i l [] taken).fetchToken =
      .ok (inBlock ⟨x :: cs, i + w.length + 1, l, w.length + 1⟩ (keyed first w) taken false
        none) := by
    cases first <;> simp [fetchToken, named, inBlock, Cursor.standsMark, ends, fetchValue, insertAt,
      openBlock, inFlow, indent, openBlocks, keyed, push, bind, Except.bind, pure, Except.pure]
  exact Steps.held rfl fresh held ((fetch_parts (skipSpace_begins begins) fresh closed).trans value)

theorem begins_name (h : IsName w) (cs : List Char) : Begins (w ++ cs) := by
  obtain ⟨c, rest, rfl, free, _, mark⟩ := h.first
  rintro _ ⟨⟩
  refine ⟨h.solid c List.mem_cons_self, ?_, mark⟩
  rintro rfl
  cases free

/-- The first member begins the mapping. -/
theorem steps_first (h : IsKey w) (ends : endsWord (some x) = true) :
    Steps 2 (.ofChars (w ++ ':' :: x :: cs)) []
      (inBlock ⟨x :: cs, 0 + w.length + 1, 0, w.length + 1⟩ (keyed true w) 0 false none) := by
  have name : (ofChars (w ++ ':' :: x :: cs)).fetch = .ok (named true w (x :: cs) 0 0 [] 0) := by
    have begins : Begins (ofChars (w ++ ':' :: x :: cs)).cursor.rest := begins_name h.toIsName _
    rw [fetch_parts (skipSpace_begins begins) rfl rfl]
    exact @fetchToken_name [] cs 0 0 0 true w x h.toIsName ends
  exact (Steps.fetch rfl rfl name).trans (steps_named h.short ends)

/-- A further member, with what stands before it. -/
theorem steps_member (waits : Awaits (w ++ ':' :: x :: cs) lx) (one : lx.queue = [t]) (h : IsKey w)
    (ends : endsWord (some x) = true) : ∃ i l,
    Steps 3 lx [t]
      (inBlock ⟨x :: cs, i, l, w.length + 1⟩ (keyed false w) (lx.taken + 1) false none) := by
  have emit (i l taken : Nat) : Steps 1 (named false w (x :: cs) i l [t] taken) [t]
      (named false w (x :: cs) i l [] (taken + 1)) := by
    have fresh : (named false w (x :: cs) i l [t] taken).dropStale =
        .ok (named false w (x :: cs) i l [t] taken) := dropStale_named h.short
    have free : (named false w (x :: cs) i l [t] taken).heldBack = false := by
      simp [heldBack, named]
    exact Steps.emit rfl fresh free
  have token (i l : Nat) (queue : List Token) (taken : Nat) :
      (inBlock ⟨w ++ ':' :: x :: cs, i, l, 0⟩ queue taken true none).fetchToken =
        .ok (named false w (x :: cs) i l queue taken) :=
    @fetchToken_name queue cs i l taken false w x h.toIsName ends
  obtain ⟨i, l, passed⟩ := waits.pass one (begins_name h.toIsName _) token emit
  exact ⟨_, l, passed.trans (steps_named h.short ends)⟩

end Name

/-- An empty list up to the end of the text. -/
theorem finishes_empty : Finishes 8
    (inBlock ⟨[' ', '[', ']', '\n'], i, l, k⟩ [.value] taken false none)
    [.value, .flowSequenceStart, .flowSequenceEnd, .blockEnd, .streamEnd] := by
  have value : Steps 1 (inBlock ⟨[' ', '[', ']', '\n'], i, l, k⟩ [.value] taken false none) [.value]
      (inBlock ⟨[' ', '[', ']', '\n'], i, l, k⟩ [] (taken + 1) false none) :=
    steps_emit rfl rfl (.inl rfl)
  have fetched : (inBlock ⟨[' ', '[', ']', '\n'], i, l, k⟩ [] (taken + 1) false none).fetch =
      .ok ⟨⟨[']', '\n'], i + 2, l, k + 2⟩, [.flowSequenceStart], taken + 1, [0], true, none, [none],
        false⟩ := by
    rw [fetch_inner (by decide) (by decide)]
    rfl
  have opening : Steps 1 ⟨⟨[']', '\n'], i + 2, l, k + 2⟩, [.flowSequenceStart], taken + 1, [0],
      true, none, [none], false⟩ [.flowSequenceStart] _ := steps_emit rfl rfl (.inr rfl)
  have closing :
      (Lexer.mk ⟨[']', '\n'], i + 2, l, k + 2⟩ [] (taken + 2) [0] true none [none] false).fetch =
        .ok (inBlock ⟨['\n'], i + 3, l, k + 3⟩ [.flowSequenceEnd] (taken + 2) false none) := rfl
  have waits : Awaits []
      (inBlock ⟨['\n'], i + 3, l, k + 3⟩ [.flowSequenceEnd] (taken + 2) false none) := .behind nofun
  have rest : Finishes 4 _ [.flowSequenceEnd, .blockEnd, .streamEnd] :=
    finishes_entries [] waits rfl
  exact finishes_of_steps (value.trans ((Steps.fetch rfl rfl fetched).trans
    (opening.trans (Steps.fetch rfl rfl closing)))) rest

theorem steps_emits (first : List Token) {c : Cursor} : Steps first.length
    (inBlock c (first ++ queue) taken keyAllowed none) first
    (inBlock c queue (taken + first.length) keyAllowed none) := by
  induction first generalizing taken with
  | nil => exact fun fuel => rfl
  | cons t first ih =>
      have one : Steps 1 (inBlock c (t :: (first ++ queue)) taken keyAllowed none) [t]
          (inBlock c (first ++ queue) (taken + 1) keyAllowed none) := steps_emit rfl rfl (.inl rfl)
      have count : 1 + first.length = (t :: first).length := Nat.add_comm 1 _
      have place : taken + 1 + first.length = taken + (t :: first).length := by
        rw [Nat.add_assoc, count]
      rw [← place, ← count]
      exact one.trans ih

/-! The whole text. -/

/-- A list behind the name of its member, as it is written. -/
def listChars (ids : List String) : List Char :=
  if ids.isEmpty then [' ', '[', ']', '\n'] else '\n' :: entriesChars ids

def listTokens (ids : List String) : List Token :=
  if ids.isEmpty then [.flowSequenceStart, .flowSequenceEnd] else entryTokens ids

theorem finishes_list (ids : List String) : Finishes (4 * ids.length + 8)
    (inBlock ⟨listChars ids, i, l, k⟩ [.value] taken false none)
    (.value :: (listTokens ids ++ [.blockEnd, .streamEnd])) := by
  cases ids with
  | nil => exact finishes_empty
  | cons id ids =>
      have waits : Awaits (entriesChars (id :: ids))
          (inBlock ⟨'\n' :: entriesChars (id :: ids), i, l, k⟩ [.value] taken false none) :=
        .behind nofun
      have enough : 4 * (id :: ids).length + 4 ≤ 4 * (id :: ids).length + 8 := by omega
      exact (finishes_entries (id :: ids) waits rfl).mono enough

/-- A mapping with a text and a list. -/
def mappingChars (w v : List Char) (s : String) (ids : List String) : List Char :=
  w ++ ':' :: ' ' :: (scalarChars s ++ (v ++ ':' :: listChars ids))

def mappingTokens (w v : List Char) (s : String) (ids : List String) : List Token :=
  [.blockMappingStart, .key, .scalar (String.ofList w) .plain, .value] ++
    ([.scalar s (styleFor s)] ++ ([.key, .scalar (String.ofList v) .plain] ++
      (.value :: (listTokens ids ++ [.blockEnd, .streamEnd]))))

theorem finishes_mapping {w v : List Char} (first : IsKey w) (second : IsKey v) (s : String)
    (ids : List String) : Finishes (4 * ids.length + 20) (ofChars (mappingChars w v s ids))
      (mappingTokens w v s ids) := by
  obtain ⟨x, cs, list, ends⟩ : ∃ x cs, listChars ids = x :: cs ∧ endsWord (some x) = true := by
    rw [listChars]
    split <;> exact ⟨_, _, rfl, rfl⟩
  have opening := @steps_first (scalarChars s ++ (v ++ ':' :: x :: cs)) w ' ' first rfl
  have emits := @steps_emits [] 0 false
    [.blockMappingStart, .key, .scalar (String.ofList w) .plain, .value]
    ⟨' ' :: (scalarChars s ++ (v ++ ':' :: x :: cs)), 0 + w.length + 1, 0, w.length + 1⟩
  obtain ⟨lx', fetched, waits, queue, _⟩ := fetch_scalar s
    (begins_name second.toIsName (':' :: x :: cs)) (0 + w.length + 1) 0 (w.length + 1) 4 false
  have scalar := Steps.fetch rfl rfl fetched
  obtain ⟨i, l, member⟩ := steps_member waits queue second ends
  have names := @steps_emits [.value] (lx'.taken + 1) false [.key, .scalar (String.ofList v) .plain]
    ⟨x :: cs, i, l, v.length + 1⟩
  have rest := @finishes_list i l (v.length + 1) (lx'.taken + 3) ids
  rw [list] at rest
  have whole := finishes_of_steps
    (opening.trans (emits.trans (scalar.trans (member.trans names)))) rest
  rw [mappingChars, list, mappingTokens]
  have enough : 2 + (4 + (1 + (3 + 2))) + (4 * ids.length + 8) ≤ 4 * ids.length + 20 := by omega
  have run := whole.mono enough
  simp only [List.nil_append, List.cons_append] at run ⊢
  exact run

end Lines

section Mapping

variable {w v : List Char}

theorem listChars_allowed (ids : List String) : Allowed (listChars ids) := by
  rw [listChars]
  split
  · exact List.all_eq_true.mp rfl
  · refine allowed_cons rfl ?_
    intro d hd
    obtain ⟨id, _, member⟩ := List.mem_flatMap.mp hd
    exact allowed_cons rfl (allowed_cons rfl (scalarChars_allowed id)) d member

theorem length_le_listChars (ids : List String) : ids.length ≤ (listChars ids).length := by
  have entries : ids.length ≤ (entriesChars ids).length := by
    induction ids with
    | nil => exact Nat.zero_le _
    | cons id ids ih =>
        simp only [entriesChars, List.flatMap_cons, List.length_append, List.length_cons] at ih ⊢
        omega
  cases ids with
  | nil => exact Nat.zero_le _
  | cons id ids => exact Nat.le_succ_of_le entries

theorem tokensOf_of_head {cs : List Char} (mark : cs.head? ≠ some '\ufeff') :
    tokensOf (String.ofList cs) =
      if cs.all isAllowed then tokens (12 * cs.length + 12) (.ofChars cs)
      else ([], some .controlCharacter) := by
  rw [tokensOf, String.toList_ofList]
  split
  · exact absurd rfl mark
  · rfl

/-- The text of a mapping has these tokens. -/
theorem tokensOf_mapping (first : IsKey w) (second : IsKey v) (s : String) (ids : List String) :
    tokensOf (String.ofList (mappingChars w v s ids)) = (mappingTokens w v s ids, none) := by
  have characters : Allowed (mappingChars w v s ids) :=
    allowed_append first.allowed (allowed_cons rfl (allowed_cons rfl (allowed_append
      (scalarChars_allowed s) (allowed_append second.allowed (allowed_cons rfl
        (listChars_allowed ids))))))
  have enough : 4 * ids.length + 20 ≤ 12 * (mappingChars w v s ids).length + 12 := by
    have entries := length_le_listChars ids
    simp only [mappingChars, List.length_append, List.length_cons]
    omega
  have run := (finishes_mapping first second s ids).mono enough 0
  have mark : (mappingChars w v s ids).head? ≠ some '\ufeff' := by
    obtain ⟨c, rest, rfl, _, _, other⟩ := first.first
    exact mt Option.some.inj other
  rw [Nat.zero_add] at run
  rw [tokensOf_of_head mark, if_pos (List.all_eq_true.mpr characters)]
  exact run

end Mapping

end AssessmentPlans.Yaml
