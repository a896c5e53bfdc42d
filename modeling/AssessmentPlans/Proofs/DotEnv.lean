import AssessmentPlans.DotEnv
import Mathlib.Data.List.Basic

/-! What a text sets when it is loaded. A variable that is set keeps its value, and of several
lines that set one the first counts. -/
namespace AssessmentPlans.DotEnv

variable {vars vars' : Variables} {cs line rest : List Char}

/-! One line. -/

theorem cutLine_shorter (some : cs ≠ []) : (cutLine cs).2.length < cs.length := by
  have left : (cs.dropWhile (· != '\n')).length ≤ cs.length :=
    (List.dropWhile_suffix _).length_le
  have whole : 0 < cs.length := List.length_pos_iff.mpr some
  rw [cutLine, List.length_drop]
  omega

theorem nextLine_shorter {fuel : Nat} {scan : Scan} {front : List Char}
    (read : nextLine fuel scan front cs = .ok (line, rest)) : rest.length < cs.length := by
  induction fuel generalizing scan front cs with
  | zero => cases read
  | succ fuel ih =>
      rw [nextLine] at read
      split at read
      · cases read
      · next more =>
        have shorter := cutLine_shorter (mt List.isEmpty_iff.mpr more)
        dsimp only at read
        split at read
        · cases read
          exact shorter
        · split at read
          · cases read
            exact shorter
          · cases read
            exact shorter
          · exact Nat.lt_trans (ih read) shorter

/-! All lines. -/

/-- The settings of a text, line by line. A value may refer to the variables that are set by then,
those of earlier lines among them. -/
inductive Sets : Variables → List Char → Variables → Prop where
  | nothing {vars : Variables} : Sets vars [] []
  | idle {vars settings : Variables} {cs line rest : List Char}
      (next : nextLine (cs.length + 1) .bare [] cs = .ok (line, rest))
      (empty : readSetting vars line = .ok none) (later : Sets vars rest settings) :
      Sets vars cs settings
  | setting {vars settings : Variables} {cs line rest : List Char} {key value : String}
      (next : nextLine (cs.length + 1) .bare [] cs = .ok (line, rest))
      (read : readSetting vars line = .ok (some (key, value)))
      (later : Sets (Variables.add key value vars) rest settings) :
      Sets vars cs ((key, value) :: settings)

/-- The variables after some settings, made one after the other. -/
def Variables.addAll (settings vars : Variables) : Variables :=
  settings.foldl (fun vars s => Variables.add s.1 s.2 vars) vars

theorem lookup_add (key value name : String) :
    (Variables.add key value vars).lookup name =
      (vars.lookup name).or (List.lookup name [(key, value)]) := by
  rw [Variables.add]
  split
  · next known =>
    cases own : vars.lookup name with
    | some found => rfl
    | none =>
        have other : name ≠ key := by
          rintro rfl
          rw [own] at known
          cases known
        rw [Option.none_or, List.lookup_cons, beq_false_of_ne other]
        rfl
  · exact List.lookup_append

/-- Own variables come first, then the first setting of the name. -/
theorem lookup_addAll (settings : Variables) (name : String) :
    (Variables.addAll settings vars).lookup name =
      (vars.lookup name).or (settings.lookup name) := by
  induction settings generalizing vars with
  | nil => exact (Option.or_none).symm
  | cons s settings ih =>
      have apart : (s :: settings).lookup name =
          (List.lookup name [s]).or (settings.lookup name) :=
        @List.lookup_append _ _ _ [s] settings name
      rw [Variables.addAll, List.foldl_cons, ← Variables.addAll, ih, lookup_add, apart,
        Option.or_assoc]

theorem ne_nil_of_nextLine (next : nextLine (cs.length + 1) .bare [] cs = .ok (line, rest)) :
    ¬cs.isEmpty = true := by
  intro empty
  rw [List.isEmpty_iff] at empty
  subst empty
  cases next

/-- All settings of a text are made. -/
theorem Sets.loadFrom {settings : Variables} (sets : Sets vars cs settings) {fuel : Nat}
    (enough : cs.length < fuel) :
    loadFrom fuel vars cs = (Variables.addAll settings vars, none) := by
  induction sets generalizing fuel with
  | nothing =>
      cases fuel with
      | zero => exact absurd enough (Nat.not_lt_zero _)
      | succ fuel => rfl
  | idle next empty later ih =>
      cases fuel with
      | zero => exact absurd enough (Nat.not_lt_zero _)
      | succ fuel =>
          have fewer := Nat.lt_of_lt_of_le (nextLine_shorter next) (Nat.le_of_lt_succ enough)
          rw [DotEnv.loadFrom, if_neg (ne_nil_of_nextLine next), next]
          simp only [empty]
          exact ih fewer
  | setting next read later ih =>
      cases fuel with
      | zero => exact absurd enough (Nat.not_lt_zero _)
      | succ fuel =>
          have fewer := Nat.lt_of_lt_of_le (nextLine_shorter next) (Nat.le_of_lt_succ enough)
          rw [DotEnv.loadFrom, if_neg (ne_nil_of_nextLine next), next]
          simp only [read]
          exact ih fewer

/-- A text is loaded without a fault only by its settings. The fuel is never used up before, since
each line takes a character at least. -/
theorem exists_sets {fuel : Nat} (enough : cs.length < fuel)
    (loaded : loadFrom fuel vars cs = (vars', none)) : ∃ settings, Sets vars cs settings := by
  induction fuel generalizing vars cs with
  | zero => exact absurd enough (Nat.not_lt_zero _)
  | succ fuel ih =>
      rw [DotEnv.loadFrom] at loaded
      split at loaded
      · next empty =>
        rw [List.isEmpty_iff] at empty
        subst empty
        exact ⟨[], .nothing⟩
      · split at loaded
        · cases loaded
        · next line rest next =>
          have fewer := Nat.lt_of_lt_of_le (nextLine_shorter next) (Nat.le_of_lt_succ enough)
          split at loaded
          · cases loaded
          · next empty =>
            obtain ⟨settings, sets⟩ := ih fewer loaded
            exact ⟨settings, .idle next empty sets⟩
          · next key value read =>
            obtain ⟨settings, sets⟩ := ih fewer loaded
            exact ⟨(key, value) :: settings, .setting next read sets⟩

/-- The text without the byte order mark at its beginning. -/
def unmarked (text : String) : List Char :=
  match text.toList with
  | '\ufeff' :: cs => cs
  | cs => cs

theorem load_eq_ok {text : String} : load text vars = (vars', none) ↔
    ∃ settings, Sets vars (unmarked text) settings ∧ vars' = Variables.addAll settings vars := by
  have whole : load text vars = loadFrom ((unmarked text).length + 1) vars (unmarked text) := rfl
  have enough := Nat.lt_succ_self (unmarked text).length
  rw [whole]
  constructor
  · intro loaded
    obtain ⟨settings, sets⟩ := exists_sets enough loaded
    exact ⟨settings, sets, congrArg Prod.fst (loaded.symm.trans (sets.loadFrom enough))⟩
  · rintro ⟨settings, sets, rfl⟩
    exact sets.loadFrom enough

end AssessmentPlans.DotEnv
