import AssessmentPlans.Config.Sources
import AssessmentPlans.Proofs.Config.Override
import AssessmentPlans.Proofs.DotEnv
import AssessmentPlans.Proofs.Execution
import AssessmentPlans.Proofs.Sight
import AssessmentPlans.Proofs.Workspace.Saving

/-! Which of its sources each part of a configuration is taken from: the variables of the run, then
those that the workspace sets beside it, then the file. -/
namespace AssessmentPlans

/-- A whole text is read where there is one, and only there. -/
theorem World.readLines_eq_ok {w : World} {p : Path} {s : String} :
    w.files.readLines w.here p = .ok (s, none) ↔ w.Sees p s := by
  constructor
  · intro read
    refine Sees.of_readText ?_
    rw [Files.readText, read]
    rfl
  · intro seen
    rw [Files.readLines, seen]
    rfl

theorem World.warnings_warn (w : World) (line : String) :
    (w.perform (.warn line)).2.warnings = w.warnings ++ [line] := by
  rw [World.warnings, World.messages, World.perform, List.reverse_cons, List.filterMap_append]
  rfl

theorem Job.warnings_always {fail : Fault → World → Prop} (w : World) (lines : List String) :
    (lines.forM Job.warn).Always Performed (fun _ => True)
      (fun _ x => x.warnings = w.warnings ++ lines) fail w := by
  induction lines generalizing w with
  | nil => exact Always.pure (List.append_nil _).symm
  | cons line lines ih =>
      refine Always.perform_bind trivial fun answer x warned => ?_
      cases warned
      have rest := ih (w.perform (.warn line)).2
      rw [World.warnings_warn, List.append_assoc] at rest
      exact rest

namespace ScopeConfig

open DotEnv (Sets Variables)

variable {w : World} {workspace p : Path} {file : Option Path} {vars vars' : Variables}

/-- What the file beside the configuration sets. A workspace without such a file sets nothing. -/
inductive SetBeside (w : World) (workspace : Path) (vars : Variables) : Variables → Prop where
  | absent (missing : w.files.isPresent w.here (workspace.join ⟨".env"⟩) = false) :
      SetBeside w workspace vars []
  | present {text : String} {settings : Variables} (seen : w.Sees (workspace.join ⟨".env"⟩) text)
      (sets : Sets vars (DotEnv.unmarked text) settings) : SetBeside w workspace vars settings

/-- The file that the user names, or else the first of the usual ones that is there. -/
inductive Chooses (w : World) (workspace : Path) : Option Path → Path → Prop where
  | named {p : Path} : Chooses w workspace (some p) p
  | first {p : Path} {front back : List Path}
      (names : fileNames.map workspace.child = front ++ p :: back)
      (missing : ∀ q ∈ front, w.files.isPresent w.here q = false)
      (present : w.files.isPresent w.here p = true) : Chooses w workspace none p

/-- There is a configuration in the chosen file. -/
def Stands (w : World) (launch : Launch) (workspace : Path) (file : Option Path)
    (c : ScopeConfig) : Prop :=
  ∃ path text, Chooses w workspace file path ∧
    w.Sees (workspace.join (path.absolute launch.directory)) text ∧ ofYaml text = .ok c

/-- The value of a variable: that of the run, or else the one that is set beside it. -/
def valueOf? (launch : Launch) (settings : Variables) (name : String) : Option String :=
  (launch.environment.lookup name).or (settings.lookup name)

/-- Each part is taken from its variable, and without one from the file. -/
structure Follows (launch : Launch) (settings : Variables) (written c : ScopeConfig) : Prop where
  framework : c.framework = (valueOf? launch settings frameworkVariable).getD written.framework
  controls : c.controls = distinct
    (((valueOf? launch settings controlsVariable).map commaSeparated).getD written.controls)

/-! The jobs, one after the other. -/

theorem run_isPresent {present : Bool} (h : w.files.isPresent w.here p = present) :
    w.run (Job.isPresent p) = (.ok present, w) :=
  congrArg (fun b => (Except.ok b, w)) h

theorem run_readLines {answer : Except FileError (String × Option FileError)}
    (h : w.files.readLines w.here p = answer) :
    w.run (Job.perform (.readLines p)) = (.ok answer, w) :=
  congrArg (fun answer => (Except.ok answer, w)) h

theorem run_loadVariables_present (w : World) (workspace : Path) (vars : Variables)
    {answer : Except FileError (String × Option FileError)}
    (there : w.files.isPresent w.here (workspace.join ⟨".env"⟩) = true)
    (lines : w.files.readLines w.here (workspace.join ⟨".env"⟩) = answer) :
    ∃ loaded, w.run (loadVariables (some workspace) vars) = (.ok loaded, w) ∧
      ∀ vars', loaded = (vars', .ok ()) ↔
        ∃ text, answer = .ok (text, none) ∧ DotEnv.load text vars = (vars', none) := by
  have opened {β : Type} {f : Bool → Job β} := World.run_bind_of_ok (f := f) (run_isPresent there)
  have read {β : Type} {f : _ → Job β} := World.run_bind_of_ok (f := f) (run_readLines lines)
  cases answer with
  | error e =>
      refine ⟨_, opened.trans read, fun vars' => iff_of_false nofun ?_⟩
      rintro ⟨text, whole, _⟩
      cases whole
  | ok both =>
      obtain ⟨text, ending⟩ := both
      have runs : w.run (loadVariables (some workspace) vars) = _ := opened.trans read
      cases loaded : DotEnv.load text vars with
      | mk added fault =>
          dsimp only at runs
          rw [loaded] at runs
          cases fault with
          | some fault => 
              refine ⟨_, runs, fun vars' => iff_of_false nofun ?_⟩
              rintro ⟨_, same, whole⟩
              cases same
              cases loaded.symm.trans whole
          | none =>
              cases ending with
              | some e =>
                  refine ⟨_, runs, fun vars' => iff_of_false nofun ?_⟩
                  rintro ⟨_, same, _⟩
                  cases same
              | none =>
                  refine ⟨_, runs, fun vars' => ⟨?_, ?_⟩⟩
                  · rintro ⟨⟩
                    exact ⟨text, rfl, loaded⟩
                  · rintro ⟨_, same, whole⟩
                    cases same
                    cases loaded.symm.trans whole
                    rfl

theorem run_loadVariables (w : World) (workspace : Path) (vars : Variables) :
    ∃ loaded, w.run (loadVariables (some workspace) vars) = (.ok loaded, w) ∧
      ∀ vars', loaded = (vars', .ok ()) ↔
        ∃ settings, SetBeside w workspace vars settings ∧ vars' = Variables.addAll settings vars := by
  cases there : w.files.isPresent w.here (workspace.join ⟨".env"⟩) with
  | false =>
      refine ⟨(vars, .ok ()), World.run_bind_of_ok (run_isPresent there), fun vars' => ?_⟩
      constructor
      · rintro ⟨⟩
        exact ⟨[], .absent there, rfl⟩
      · rintro ⟨settings, set, rfl⟩
        cases set with
        | absent => rfl
        | present seen => cases there.symm.trans seen.isPresent
  | true =>
      obtain ⟨loaded, runs, success⟩ := run_loadVariables_present w workspace vars there rfl
      refine ⟨loaded, runs, fun vars' => (success vars').trans ⟨?_, ?_⟩⟩
      · rintro ⟨text, whole, made⟩
        obtain ⟨settings, sets, same⟩ := DotEnv.load_eq_ok.mp made
        exact ⟨settings, .present (World.readLines_eq_ok.mp whole) sets, same⟩
      · rintro ⟨settings, set, same⟩
        cases set with
        | absent missing => cases there.symm.trans missing
        | present seen sets =>
            exact ⟨_, World.readLines_eq_ok.mpr seen, DotEnv.load_eq_ok.mpr ⟨settings, sets, same⟩⟩

theorem run_firstPresent (ps : List Path) :
    w.run (firstPresent ps) = (.ok (ps.find? fun p => w.files.isPresent w.here p), w) := by
  induction ps with
  | nil => rfl
  | cons p ps ih =>
      rw [firstPresent, List.find?_cons]
      cases there : w.files.isPresent w.here p with
      | true => exact World.run_bind_of_ok (run_isPresent there)
      | false => exact (World.run_bind_of_ok (run_isPresent there)).trans ih

theorem chooses_none : Chooses w workspace none p ↔
    (fileNames.map workspace.child).find? (fun q => w.files.isPresent w.here q) = some p := by
  rw [List.find?_eq_some_iff_append]
  constructor
  · intro chosen
    cases chosen with
    | first names missing present =>
        exact ⟨present, _, _, names, fun q member => by rw [missing q member]; rfl⟩
  · rintro ⟨present, front, back, names, missing⟩
    exact .first names (fun q member => by simpa using missing q member) present

theorem run_findFile (w : World) (workspace : Path) : ∃ found, w.run (findFile workspace) = (found, w) ∧
    ∀ p, found = .ok p ↔ Chooses w workspace none p := by
  have begins {β : Type} {f : _ → Job β} :=
    World.run_bind_of_ok (f := f) (run_firstPresent (w := w) (fileNames.map workspace.child))
  simp only [chooses_none]
  cases found : (fileNames.map workspace.child).find? fun q => w.files.isPresent w.here q with
  | none =>
      rw [found] at begins
      exact ⟨_, begins, fun p => iff_of_false nofun nofun⟩
  | some q =>
      rw [found] at begins
      refine ⟨_, begins, fun p => ?_⟩
      rw [Option.some.injEq]
      exact ⟨fun same => Except.ok.inj same, fun same => congrArg Except.ok same⟩

theorem run_warnings (lines : List String) : (w.run (lines.forM Job.warn)).1 = .ok () := by
  induction lines generalizing w with
  | nil => rfl
  | cons line lines ih => exact ih

theorem parse_eq_ok {text : String} {source : Option String} {c : ScopeConfig} {told : List String} :
    parse text source = .ok (c, told) ↔
      ∃ written, ofYaml text = .ok written ∧ c = written.dedup ∧ told = written.repeatWarnings := by
  rw [parse]
  cases ofYaml text with
  | error fault =>
      constructor
      · intro parsed
        cases parsed
      · intro built
        obtain ⟨_, read, _⟩ := built
        cases read
  | ok written =>
      constructor
      · intro parsed
        cases parsed
        exact ⟨written, rfl, rfl, rfl⟩
      · intro built
        obtain ⟨_, read, same, warned⟩ := built
        cases read
        rw [same, warned]

/-- What a file is parsed to is taken as it is, with its warnings. -/
theorem loadFile_always (w : World) (base : Option Path) (p : Path) :
    (loadFile base p).Always Performed (fun _ => True)
      (fun c x => ∃ text told, w.Sees (resolve base p) text ∧
        parse text (some (resolve base p).text) = .ok (c, told) ∧ x.warnings = w.warnings ++ told)
      (fun _ x => x.warnings = w.warnings) w := by
  unfold loadFile
  refine Job.Always.perform_bind trivial fun present x looked => ?_
  cases looked
  split
  · exact Job.Always.throw rfl
  · refine Job.Always.perform_bind trivial fun answer x read => ?_
    cases read
    refine Job.Always.orFail_bind (fun text ok => ?_) fun _ _ => rfl
    have seen : w.Sees (resolve base p) text := .of_readText ok
    split
    · exact Job.Always.throw rfl
    · next c told parsed =>
      refine Job.Always.bind _ (Job.warnings_always w told) fun _ x logged => ?_
      exact Job.Always.pure ⟨text, told, seen, parsed, logged⟩

theorem loadFile_eq_ok {base : Path} {c : ScopeConfig} :
    (w.run (loadFile (some base) p)).1 = .ok c ↔
      ∃ text written, w.Sees (base.join p) text ∧ ofYaml text = .ok written ∧ c = written.dedup := by
  constructor
  · intro loaded
    have ended := Job.Ends.performed (loadFile (some base) p) w
    rw [loaded] at ended
    obtain ⟨text, told, seen, parsed, _⟩ := (loadFile_always w (some base) p).ends_ok ended
    obtain ⟨written, read, same, _⟩ := parse_eq_ok.mp parsed
    exact ⟨text, written, seen, read, same⟩
  · rintro ⟨text, written, seen, read, rfl⟩
    rw [loadFile, World.run_bind_eq_ok]
    refine ⟨true, congrArg Except.ok seen.isPresent, ?_⟩
    refine World.run_bind_eq_ok.mpr ⟨.ok text, congrArg Except.ok seen.readText, ?_⟩
    refine World.run_bind_eq_ok.mpr ⟨text, rfl, ?_⟩
    rw [parse, read]
    exact World.run_bind_eq_ok.mpr ⟨(), run_warnings _, rfl⟩

/-- Whatever is done with the chosen file is done if there is one. -/
theorem run_choose {β : Type} {f : Path → Job β} {b : β} :
    (w.run (match file with
      | some path => do
        let path ← pure path
        f path
      | none => do
        let path ← findFile workspace
        f path)).1 = .ok b ↔ ∃ path, Chooses w workspace file path ∧ (w.run (f path)).1 = .ok b := by
  cases file with
  | some path =>
      rw [World.run_bind_eq_ok]
      constructor
      · rintro ⟨_, same, rest⟩
        cases same
        exact ⟨path, .named, rest⟩
      · rintro ⟨_, ⟨⟩, rest⟩
        exact ⟨path, rfl, rest⟩
  | none =>
      obtain ⟨found, runs, chosen⟩ := run_findFile w workspace
      rw [World.run_bind_eq_ok, runs]
      exact exists_congr fun path => and_congr_left fun _ => chosen path

theorem follows_iff {launch : Launch} {settings : Variables} {written c : ScopeConfig} :
    Follows launch settings written c ↔ c = written.dedup.override
      { launch with environment := Variables.addAll settings launch.environment }.valueOf? := by
  have value : ({ launch with environment := Variables.addAll settings launch.environment }
      : Launch).valueOf? = valueOf? launch settings :=
    funext fun name => DotEnv.lookup_addAll settings name
  have parts : written.dedup.override (valueOf? launch settings) =
      ⟨(valueOf? launch settings frameworkVariable).getD written.framework,
        distinct (((valueOf? launch settings controlsVariable).map commaSeparated).getD
          written.controls)⟩ := by
    rw [override]
    cases valueOf? launch settings controlsVariable <;> rfl
  rw [value, parts]
  constructor
  · intro follows
    obtain ⟨framework, controls⟩ := c
    exact ScopeConfig.mk.injEq .. ▸ ⟨follows.framework, follows.controls⟩
  · rintro rfl
    exact ⟨rfl, rfl⟩

theorem load_eq_ok {launch after : Launch} {c : ScopeConfig} :
    (w.run (load launch workspace file)).1 = .ok (c, after) ↔
      ∃ settings written, SetBeside w workspace launch.environment settings ∧
        Stands w launch workspace file written ∧ Follows launch settings written c ∧
        after = { launch with environment := Variables.addAll settings launch.environment } := by
  obtain ⟨loaded, runs, success⟩ := run_loadVariables w workspace launch.environment
  rw [load, World.run_bind_of_ok runs]
  constructor
  · intro ok
    obtain ⟨_, accepted, ok⟩ := World.run_bind_eq_ok.mp ok
    obtain ⟨vars', result⟩ := loaded
    cases result with
    | error fault => cases accepted
    | ok _ =>
        obtain ⟨settings, set, rfl⟩ := (success vars').mp rfl
        obtain ⟨path, chosen, ok⟩ := run_choose.mp ok
        obtain ⟨d, read, same⟩ := World.run_bind_eq_ok.mp ok
        obtain ⟨text, written, seen, document, rfl⟩ := loadFile_eq_ok.mp read
        cases same
        exact ⟨settings, written, set, ⟨path, text, chosen, seen, document⟩, follows_iff.mpr rfl, rfl⟩
  · rintro ⟨settings, written, set, ⟨path, text, chosen, seen, document⟩, follows, rfl⟩
    cases (success _).mpr ⟨settings, set, rfl⟩
    refine World.run_bind_eq_ok.mpr ⟨(), rfl, run_choose.mpr ⟨path, chosen, ?_⟩⟩
    have read := loadFile_eq_ok.mpr ⟨text, written, seen, document, rfl⟩
    refine World.run_bind_eq_ok.mpr ⟨written.dedup, read, ?_⟩
    rw [follows_iff.mp follows]
    rfl

/-- A configuration is loaded exactly where its file stands and is well formed, whatever the
variables are, and then each of its parts follows the first source that has it. Controls that a
variable lists may be none at all. -/
theorem configuration_sources (w : World) (launch after : Launch) (workspace : Path)
    (file : Option Path) (c : ScopeConfig) :
    ((w.run (load launch workspace file)).1 = .ok (c, after) ↔
      ∃ settings written, SetBeside w workspace launch.environment settings ∧
        Stands w launch workspace file written ∧ Follows launch settings written c ∧
        after = { launch with environment := Variables.addAll settings launch.environment }) ∧
      ∀ settings written text, Follows launch settings written c →
        valueOf? launch settings controlsVariable = some text →
        ListedIn text c.controls ∧
          ((∀ x ∈ text.toList, x = ',' ∨ Text.isBlank x = true) → c.controls = []) := by
  refine ⟨load_eq_ok, ?_⟩
  intro settings written text follows given
  have listed : c.controls = distinct (commaSeparated text) := by
    rw [follows.controls, given]
    rfl
  rw [listed]
  refine ⟨listedIn_commaSeparated text, fun idle => ?_⟩
  rw [commaSeparated_idle idle]
  rfl

/-! A run that names another framework than the workspace, which names another than the file. -/

def ownVariables : Launch := ⟨[(frameworkVariable, "nist")], ⟨"/"⟩, "h", 1, false⟩

def layeredSettings : Variables := [(frameworkVariable, "cis"), (controlsVariable, " , ")]

def layered : World := { World.bare with
  files := ⟨[(["w"], .directory),
    (["w", ".env"], .text "COMPLYTIME_FRAMEWORK_ID=cis\nCOMPLYTIME_INCLUDE_CONTROLS=' , '\n"),
    (["w", "assessment-plan-filter.yml"], .text "frameworkId: pci\nincludeControls: [ac-1]")]⟩ }

theorem layered_set : SetBeside layered ⟨"w"⟩ ownVariables.environment layeredSettings := by
  have seen : layered.Sees ⟨"w/.env"⟩
      "COMPLYTIME_FRAMEWORK_ID=cis\nCOMPLYTIME_INCLUDE_CONTROLS=' , '\n" := rfl
  have framework : DotEnv.nextLine 63 .bare [] (DotEnv.unmarked
      "COMPLYTIME_FRAMEWORK_ID=cis\nCOMPLYTIME_INCLUDE_CONTROLS=' , '\n") =
      .ok ("COMPLYTIME_FRAMEWORK_ID=cis".toList, "COMPLYTIME_INCLUDE_CONTROLS=' , '\n".toList) := by
    decide +kernel
  have controls : DotEnv.nextLine 35 .bare [] "COMPLYTIME_INCLUDE_CONTROLS=' , '\n".toList =
      .ok ("COMPLYTIME_INCLUDE_CONTROLS=' , '".toList, []) := by
    decide +kernel
  exact .present seen (.setting framework (by decide +kernel)
    (.setting controls (by decide +kernel) .nothing))

theorem layered_stands : Stands layered ownVariables ⟨"w"⟩ none ⟨"pci", ["ac-1"]⟩ := by
  have chosen : Chooses layered ⟨"w"⟩ none ⟨"w/assessment-plan-filter.yml"⟩ :=
    chooses_none.mpr (by decide +kernel)
  exact ⟨_, "frameworkId: pci\nincludeControls: [ac-1]", chosen, rfl, by decide +kernel⟩

theorem configuration_sources_layered : ∃ after,
    (layered.run (load ownVariables ⟨"w"⟩ none)).1 = .ok (⟨"nist", []⟩, after) := by
  have follows : Follows ownVariables layeredSettings ⟨"pci", ["ac-1"]⟩ ⟨"nist", []⟩ :=
    ⟨by decide +kernel, by decide +kernel⟩
  obtain ⟨sources, _⟩ := configuration_sources layered ownVariables _ ⟨"w"⟩ none ⟨"nist", []⟩
  exact ⟨_, sources.mpr ⟨_, _, layered_set, layered_stands, follows, rfl⟩⟩

end ScopeConfig
end AssessmentPlans
