import AssessmentPlans.Proofs.Config.Sources
import AssessmentPlans.Proofs.Framework

/-! No configuration lists a control twice. Whichever way it is built, it lists the first occurrences
of the controls that it is built from, and how many others were dropped is counted and told. -/
namespace AssessmentPlans

namespace ScopeConfig

variable {c d : ScopeConfig} {ids : List String}

/-- The configuration lists the given controls, each where it stands first and only there. A scope
made of it has as many controls as it lists. -/
structure Lists (ids : List String) (c : ScopeConfig) : Prop where
  firsts : c.controls = firstOccurrences ids
  once : c.controls.Nodup
  counted : c.scope.controls.size = c.controls.length

theorem lists_iff : c.Lists ids ↔ c.controls = distinct ids := by
  rw [distinct_eq_firstOccurrences]
  constructor
  · exact Lists.firsts
  · intro firsts
    have once : c.controls.Nodup := by
      rw [firsts, ← distinct_eq_firstOccurrences]
      exact distinct_nodup ids
    exact ⟨firsts, once, IdSet.size_eq_length once fun _ => IdSet.mem_ofList⟩

/-! Dropping what is repeated. -/

theorem eq_dedup_iff : d = c.dedup ↔ d.framework = c.framework ∧ d.Lists c.controls := by
  rw [lists_iff]
  obtain ⟨framework, controls⟩ := d
  exact ScopeConfig.mk.injEq .. ▸ Iff.rfl

theorem dedup_of_nodup (once : c.controls.Nodup) : c.dedup = c :=
  (eq_dedup_iff.mpr ⟨rfl, lists_iff.mpr (distinct_eq_self_iff.mpr once).symm⟩).symm

theorem dedup_dedup (c : ScopeConfig) : c.dedup.dedup = c.dedup :=
  dedup_of_nodup (distinct_nodup c.controls)

theorem length_dedup_add (c : ScopeConfig) :
    c.dedup.controls.length + c.repeats = c.controls.length :=
  Nat.add_sub_of_le (distinctBy_sublist id c.controls).length_le

theorem repeats_eq (c : ScopeConfig) : c.repeats = (recurrences c.controls).length := by
  have kept : c.dedup.controls = firstOccurrences c.controls := distinct_eq_firstOccurrences _
  have all := length_dedup_add c
  rw [kept, ← length_firstOccurrences_add c.controls] at all
  exact Nat.add_left_cancel all

theorem repeats_of_nodup (once : c.controls.Nodup) : c.repeats = 0 := by
  rw [repeats, dedup_of_nodup once, Nat.sub_self]

/-- What is told of entries that were dropped, if there are any. -/
inductive Told : Nat → List String → Prop where
  | nothing : Told 0 []
  | dropped {count : Nat} (some : 0 < count) :
      Told count [s!"Dropped {count} duplicate control id(s) from scope configuration"]

theorem told_iff {lines : List String} : Told c.repeats lines ↔ lines = c.repeatWarnings := by
  rw [repeatWarnings]
  split
  · next none =>
    rw [none]
    constructor
    · intro told
      cases told with
      | nothing => rfl
      | dropped some => exact absurd some (Nat.lt_irrefl 0)
    · rintro rfl
      exact .nothing
  · next some =>
    have some := Nat.pos_of_ne_zero some
    constructor
    · generalize c.repeats = count at some ⊢
      intro told
      cases told with
      | nothing => exact absurd some (Nat.lt_irrefl 0)
      | dropped => rfl
    · rintro rfl
      exact .dropped some

/-! The ways in which configurations are built. -/

theorem parse_lists {text : String} {source : Option String} {told : List String} :
    parse text source = .ok (c, told) ↔ ∃ written, ofYaml text = .ok written ∧
      c.framework = written.framework ∧ c.Lists written.controls ∧
      Told (recurrences written.controls).length told := by
  simp only [parse_eq_ok, eq_dedup_iff, ← repeats_eq, told_iff, and_assoc]

theorem override_lists {lookup : String → Option String} :
    (c.override lookup).Lists (((lookup controlsVariable).map commaSeparated).getD c.controls) ↔
      (lookup controlsVariable).isSome = true ∨ c.controls.Nodup := by
  rw [lists_iff, override]
  cases lookup controlsVariable with
  | some text => exact iff_of_true rfl (.inl rfl)
  | none =>
      have unset : ¬(none : Option String).isSome = true := Bool.false_ne_true
      apply Iff.trans _ (or_iff_right unset).symm
      exact eq_comm.trans distinct_eq_self_iff

theorem template_lists {framework : String} {ds : List Definition} :
    template framework ds = .ok c ↔ (∃ i, i ∈ implementationsFor framework ds) ∧
      c.framework = framework ∧
      c.Lists (((requirementsFor framework ds).map (·.controlId)).filter (· ≠ "")) := by
  rw [template_eq_ok, lists_iff, List.filter_map]
  obtain ⟨own, controls⟩ := c
  exact ScopeConfig.mk.injEq .. ▸ Iff.rfl

/-- What a run loads comes from its file, or from the variable that replaces the controls. -/
theorem lists_of_load {w : World} {launch after : Launch} {workspace : Path} {file : Option Path}
    (loaded : (w.run (load launch workspace file)).1 = .ok (c, after)) :
    ∃ settings written, SetBeside w workspace launch.environment settings ∧
      Stands w launch workspace file written ∧
      c.Lists (((valueOf? launch settings controlsVariable).map commaSeparated).getD
        written.controls) := by
  obtain ⟨settings, written, beside, stands, follows, _⟩ := load_eq_ok.mp loaded
  exact ⟨settings, written, beside, stands, lists_iff.mpr follows.controls⟩

/-- Each configuration lists the first occurrences of what it is built from: a text, a list of
controls, a variable in place of the controls it had, or the requirements of a framework. The others
are dropped and counted, and of those in a file it is told how many, if there are any. -/
theorem controls_listed_once (c : ScopeConfig) (text framework : String) (source : Option String)
    (told ids : List String) (lookup : String → Option String) (ds : List Definition) :
    (parse text source = .ok (c, told) ↔ ∃ written, ofYaml text = .ok written ∧
      c.framework = written.framework ∧ c.Lists written.controls ∧
      Told (recurrences written.controls).length told) ∧
    (c = make framework ids ↔ c.framework = framework ∧ c.Lists ids) ∧
    ((c.override lookup).Lists (((lookup controlsVariable).map commaSeparated).getD c.controls) ↔
      (lookup controlsVariable).isSome = true ∨ c.controls.Nodup) ∧
    (template framework ds = .ok c ↔ (∃ i, i ∈ implementationsFor framework ds) ∧
      c.framework = framework ∧
      c.Lists (((requirementsFor framework ds).map (·.controlId)).filter (· ≠ ""))) ∧
    (∀ (w after : World) (base : Option Path) (p : Path),
      (w.run (loadFile base p) = (.ok c, after) → ∃ content lines,
        w.Sees (resolve base p) content ∧
        parse content (some (resolve base p).text) = .ok (c, lines) ∧
        after.warnings = w.warnings ++ lines) ∧
      ∀ fault, w.run (loadFile base p) = (.error fault, after) → after.warnings = w.warnings) ∧
    (∀ (w : World) (launch after : Launch) (workspace : Path) (file : Option Path),
      (w.run (load launch workspace file)).1 = .ok (c, after) →
      ∃ settings written, SetBeside w workspace launch.environment settings ∧
        Stands w launch workspace file written ∧
        c.Lists (((valueOf? launch settings controlsVariable).map commaSeparated).getD
          written.controls)) ∧
    c.dedup.framework = c.framework ∧ c.dedup.Lists c.controls ∧
    (∀ id, id ∈ c.dedup.controls ↔ id ∈ c.controls) ∧
    c.repeats = (recurrences c.controls).length ∧
    c.dedup.controls.length + c.repeats = c.controls.length ∧
    c.dedup.dedup = c.dedup ∧ c.dedup.repeats = 0 := by
  obtain ⟨framework, once⟩ := eq_dedup_iff.mp (Eq.refl c.dedup)
  refine ⟨parse_lists, eq_dedup_iff, override_lists, template_lists, ?_, fun _ _ _ _ _ => lists_of_load,
    framework, once, fun _ => mem_distinct, repeats_eq c, length_dedup_add c, dedup_dedup c,
    repeats_of_nodup once.once⟩
  intro w after base p
  have ended := Job.Ends.performed (loadFile base p) w
  constructor
  · intro run
    rw [run] at ended
    exact (loadFile_always w base p).ends_ok ended
  · intro fault run
    rw [run] at ended
    exact (loadFile_always w base p).ends_error ended

/-! A file that lists one of its two controls twice. -/

def doubledText : String := "frameworkId: cis\nincludeControls: [b, a, b]"

def doubledFile : World := { World.bare with
  files := ⟨[(["w"], .directory), (["w", "scope.yml"], .text doubledText)]⟩ }

theorem doubledText_read : ofYaml doubledText = .ok ⟨"cis", ["b", "a", "b"]⟩ := by decide +kernel

theorem doubledFile_sees : doubledFile.Sees (resolve (some ⟨"w"⟩) ⟨"scope.yml"⟩) doubledText := rfl

theorem controls_listed_once_doubled : ∃ after,
    doubledFile.run (loadFile (some ⟨"w"⟩) ⟨"scope.yml"⟩) = (.ok ⟨"cis", ["b", "a"]⟩, after) ∧
      after.warnings = ["Dropped 1 duplicate control id(s) from scope configuration"] := by
  have loaded : (doubledFile.run (loadFile (some ⟨"w"⟩) ⟨"scope.yml"⟩)).1 = .ok ⟨"cis", ["b", "a"]⟩ :=
    loadFile_eq_ok.mpr ⟨doubledText, _, doubledFile_sees, doubledText_read, by decide⟩
  cases run : doubledFile.run (loadFile (some ⟨"w"⟩) ⟨"scope.yml"⟩) with
  | mk result after =>
      rw [run] at loaded
      cases loaded
      refine ⟨after, rfl, ?_⟩
      obtain ⟨_, _, _, _, loads, _⟩ := controls_listed_once ⟨"cis", ["b", "a"]⟩ "" "" none [] []
        (fun _ => none) []
      obtain ⟨text, told, seen, parsed, logged⟩ := (loads _ _ _ _).1 run
      cases Except.ok.inj (seen.symm.trans doubledFile_sees)
      obtain ⟨reads, _⟩ := controls_listed_once ⟨"cis", ["b", "a"]⟩ doubledText ""
        (some "w/scope.yml") told [] (fun _ => none) []
      obtain ⟨written, read, _, _, dropped⟩ := reads.mp parsed
      cases Except.ok.inj (read.symm.trans doubledText_read)
      have once : (recurrences ["b", "a", "b"]).length = 1 := by decide
      rw [once] at dropped
      cases dropped
      exact logged

end ScopeConfig
end AssessmentPlans
