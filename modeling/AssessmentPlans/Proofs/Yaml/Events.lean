import AssessmentPlans.Proofs.Yaml.Mapping
import AssessmentPlans.Yaml.Event

/-! The events of a mapping with a text and a list of texts. -/
namespace AssessmentPlans.Yaml

/-- The event of a scalar without a tag. -/
def textEvent (text : String) (style : ScalarStyle) : Event :=
  .scalar ⟨text, style = .plain, none⟩

/-- The events of texts, each in the style that suits it. -/
def textEvents (ids : List String) : List Event := ids.map fun id => textEvent id (styleFor id)

/-- The events of a mapping with a text and a list. -/
def mappingEvents (w v : List Char) (s : String) (ids : List String) : List Event :=
  .mappingStart :: textEvent (String.ofList w) .plain :: textEvent s (styleFor s) ::
    textEvent (String.ofList v) .plain :: .sequenceStart ::
      (textEvents ids ++ [.sequenceEnd, .mappingEnd])

namespace Read

section Steps

variable {α β : Type} {x : Read α} {f : α → Read β} {a : α} {b : β} {t : Token}
  {ts ts₁ ts₂ : List Token} {es es' : List Event}

/-- The step reads tokens as events and nothing else: from the first tokens to the others. -/
def Reads (x : Read α) (ts : List Token) (a : α) (es : List Event) (ts' : List Token) : Prop :=
  ∀ r : Reading, x.run.run { r with tokens := ts } =
    (.ok a, { r with tokens := ts', back := es.reverse ++ r.back, count := r.count + es.length })

theorem Reads.bind (h : Reads x ts a es ts₁) (h' : Reads (f a) ts₁ b es' ts₂) :
    Reads (x >>= f) ts b (es ++ es') ts₂ := by
  intro r
  rw [ExceptT.run_bind, StateT.run_bind, h r]
  refine (h' { r with back := es.reverse ++ r.back, count := r.count + es.length }).trans ?_
  simp [Nat.add_assoc]

theorem reads_pure (a : α) : Reads (pure a) ts a [] ts := fun _ => rfl

theorem reads_peek : Reads peek (t :: ts) t [] (t :: ts) := fun _ => rfl

theorem reads_skip : Reads skip (t :: ts) () [] ts := fun _ => rfl

theorem reads_emit (e : Event) : Reads (emit e) ts () [e] ts := fun _ => rfl

theorem reads_accept : Reads (accept t) (t :: ts) true [] ts := by
  have step : Reads (if t = t then do skip; return true else return false) (t :: ts) true []
      ts := by
    rw [if_pos rfl]
    exact reads_skip.bind (reads_pure true)
  exact reads_peek.bind step

theorem reads_other {u : Token} (other : u ≠ t) :
    Reads (accept t) (u :: ts) false [] (u :: ts) := by
  have step : Reads (if u = t then do skip; return true else return false) (u :: ts) false []
      (u :: ts) := by
    rw [if_neg other]
    exact reads_pure false
  exact reads_peek.bind step

end Steps

section Nodes

variable {ts us : List Token} {t : Token} {es es' : List Event} {text : String}
  {style : ScalarStyle} {block indentless : Bool} {fuel : Nat}

theorem reads_scalar : Reads (readNode block indentless (fuel + 1)) (.scalar text style :: ts) ()
    [textEvent text style] ts := by
  intro r
  rw [readNode]
  rfl

theorem reads_scalar_place (place : Place)
    (free : place.isEmptyBefore (.scalar text style) = false) :
    Reads (readPlace place block indentless (fuel + 2)) (.scalar text style :: ts) ()
      [textEvent text style] ts := by
  have step : Reads (if place.isEmptyBefore (.scalar text style) then emitEmpty
      else readNode block indentless (fuel + 1)) (.scalar text style :: ts) ()
      [textEvent text style] ts := by
    rw [free, if_neg Bool.false_ne_true]
    exact reads_scalar
  rw [readPlace]
  exact reads_peek.bind step

/-- Entries that are not indented further, up to some other token. -/
theorem reads_entries (ids : List String) (stop : t ≠ .blockEntry) (lasts : ids.length + 2 < fuel) :
    Reads (readIndentless fuel) (entryTokens ids ++ t :: ts) ()
      (textEvents ids ++ [.sequenceEnd]) (t :: ts) := by
  obtain ⟨fuel, rfl⟩ : ∃ n, fuel = n + 3 := ⟨fuel - 3, by omega⟩
  induction ids generalizing fuel with
  | nil =>
      rw [readIndentless]
      exact (reads_other stop).bind (reads_emit _)
  | cons id ids ih =>
      obtain ⟨fuel, rfl⟩ : ∃ n, fuel = n + 1 := ⟨fuel - 1, by rw [List.length_cons] at lasts; omega⟩
      have later := ih fuel (by rw [List.length_cons] at lasts; omega)
      rw [readIndentless]
      exact reads_accept.bind ((reads_scalar_place .indentlessEntry rfl).bind later)

/-- The node behind the name of a list. -/
theorem reads_list (ids : List String) (stop : t ≠ .blockEntry) (lasts : ids.length + 2 < fuel) :
    Reads (readPlace .blockMember true true (fuel + 2)) (listTokens ids ++ t :: ts) ()
      (.sequenceStart :: (textEvents ids ++ [.sequenceEnd])) (t :: ts) := by
  cases ids with
  | nil =>
      have step : Reads (readNode true true (fuel + 1)) (listTokens [] ++ t :: ts) ()
          [.sequenceStart, .sequenceEnd] (t :: ts) := by
        obtain ⟨fuel, rfl⟩ : ∃ n, fuel = n + 1 := ⟨fuel - 1, by omega⟩
        intro r
        rw [readNode]
        rfl
      rw [readPlace]
      exact reads_peek.bind step
  | cons id ids =>
      have entries := @reads_entries ts t fuel (id :: ids) stop lasts
      have step : Reads (readNode true true (fuel + 1)) (entryTokens (id :: ids) ++ t :: ts) ()
          (.sequenceStart :: (textEvents (id :: ids) ++ [.sequenceEnd])) (t :: ts) := by
        have start : Reads (do emit .sequenceStart; readIndentless fuel) _ () _ _ :=
          (reads_emit .sequenceStart).bind entries
        intro r
        rw [readNode]
        exact start r
      rw [readPlace]
      exact reads_peek.bind step

/-- A member with a name, and the members behind it. -/
theorem reads_member (w : String)
    (value : Reads (readPlace .blockMember true true (fuel + 2)) ts () es us)
    {vs : List Token} (later : Reads (readBlockMapping (fuel + 2)) us () es' vs) :
    Reads (readBlockMapping (fuel + 3)) (.key :: .scalar w .plain :: .value :: ts) ()
      (textEvent w .plain :: (es ++ es')) vs := by
  rw [readBlockMapping]
  exact reads_accept.bind ((reads_scalar_place .blockMember rfl).bind
    (reads_accept.bind (value.bind later)))

/-- A mapping, from its members. -/
theorem reads_block (members : Reads (readBlockMapping fuel) ts () es us) :
    Reads (readNode true indentless (fuel + 1)) (.blockMappingStart :: ts) ()
      (.mappingStart :: es) us := by
  have start : Reads (do emit .mappingStart; skip; readBlockMapping fuel)
      (.blockMappingStart :: ts) () _ us :=
    (reads_emit .mappingStart).bind (reads_skip.bind members)
  intro r
  rw [readNode]
  exact start r

/-- The end of the mapping. -/
theorem reads_end : Reads (readBlockMapping (fuel + 1)) (.blockEnd :: ts) () [.mappingEnd] ts := by
  rw [readBlockMapping]
  exact (reads_other (by decide)).bind (reads_accept.bind (reads_emit _))

end Nodes

theorem reads_mapping {w v : List Char} {s : String} {ids : List String} {fuel : Nat}
    (lasts : ids.length + 2 < fuel) : Reads (readNode true false (fuel + 5))
      (mappingTokens w v s ids) () (mappingEvents w v s ids) [.streamEnd] := by
  have text (ts : List Token) : Reads (readPlace .blockMember true true (fuel + 3))
      (.scalar s (styleFor s) :: ts) () [textEvent s (styleFor s)] ts :=
    reads_scalar_place .blockMember rfl
  have list := @reads_list [.streamEnd] .blockEnd fuel ids (by decide) lasts
  have second := reads_member (String.ofList v) list reads_end
  have first := reads_member (String.ofList w) (text _) second
  have whole : Reads (readNode true false (fuel + 5)) _ () _ _ := reads_block first
  simpa [mappingTokens, mappingEvents] using whole

/-- A document that is a mapping is read up to the end of the text. -/
theorem readDocument_mapping {w v : List Char} {s : String} {ids : List String} {fuel : Nat}
    (lasts : ids.length + 2 < fuel) :
    (readDocument (fuel + 5)).run.run ⟨mappingTokens w v s ids, none, [], 0, [], [], []⟩ =
      (.ok (), ⟨[.streamEnd], none, (mappingEvents w v s ids).reverse,
        (mappingEvents w v s ids).length, commonHandles, [], []⟩) := by
  have node : Reads (do readNode true false (fuel + 5); let _ ← peek) (mappingTokens w v s ids) ()
      _ _ := (reads_mapping lasts).bind (reads_peek.bind (reads_pure ()))
  refine Eq.trans (node ⟨[], none, [], 0, commonHandles, [], []⟩) ?_
  simp

end Read

theorem length_le_listTokens (ids : List String) : ids.length ≤ (listTokens ids).length := by
  have entries : ids.length ≤ (entryTokens ids).length := by
    induction ids with
    | nil => exact Nat.zero_le _
    | cons id ids ih =>
        simp only [entryTokens, List.flatMap_cons, List.length_append, List.length_cons] at ih ⊢
        omega
  cases ids with
  | nil => exact Nat.zero_le _
  | cons id ids => exact entries

/-- The stream of a mapping holds its events and nothing else. -/
theorem ofTokens_mapping (w v : List Char) (s : String) (ids : List String) :
    Stream.ofTokens (mappingTokens w v s ids) none =
      ⟨mappingEvents w v s ids, [], none, false⟩ := by
  obtain ⟨fuel, enough, lasts⟩ : ∃ fuel, 6 * (mappingTokens w v s ids).length + 6 = fuel + 5 ∧
      ids.length + 2 < fuel := by
    have entries := length_le_listTokens ids
    refine ⟨6 * (mappingTokens w v s ids).length + 1, rfl, ?_⟩
    simp only [mappingTokens, List.length_append, List.length_cons]
    omega
  rw [Stream.ofTokens, enough, Read.readDocument_mapping lasts]
  simp [holdsMore]

end AssessmentPlans.Yaml
