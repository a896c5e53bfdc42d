import AssessmentPlans.Command.Run
import AssessmentPlans.Proofs.Sight

/-! The jobs that do no more than read. Configurations change no file at all, and a bundle
may at most be made. -/
namespace AssessmentPlans

open Job

variable {launch : Launch} {workspace p : Path} {base file : Option Path} {expected : Option String}

namespace ScopeConfig

theorem firstPresent_timeless {ps : List Path} : Within Action.Timeless (firstPresent ps) := by
  induction ps with
  | nil => exact Within.pure
  | cons p ps ih =>
      refine Within.bind (Within.perform trivial) fun present => ?_
      split
      · exact Within.pure
      · exact ih

theorem findFile_timeless : Within Action.Timeless (findFile workspace) := by
  refine Within.bind firstPresent_timeless fun found => ?_
  cases found with
  | some p => exact Within.pure
  | none => exact Within.throw

theorem loadFile_timeless : Within Action.Timeless (loadFile base p) := by
  unfold loadFile
  refine Within.bind (Within.perform trivial) fun present => ?_
  split
  · exact Within.throw_bind
  · refine Within.bind (Within.perform trivial) fun answer => Within.bind Within.orFail fun text => ?_
    split
    · exact Within.throw
    · exact Within.bind (Within.forM fun _ => Within.perform trivial) fun _ => Within.pure

theorem loadVariables_timeless {vars : DotEnv.Variables} :
    Within Action.Timeless (loadVariables base vars) := by
  unfold loadVariables
  refine Within.bind (Within.perform trivial) fun present => ?_
  split
  · exact Within.pure
  · refine Within.bind (Within.perform trivial) fun answer => ?_
    cases answer with
    | error e => exact Within.pure
    | ok lines =>
        dsimp only
        split
        · exact Within.pure
        · exact Within.pure
        · exact Within.pure

theorem load_timeless : Within Action.Timeless (load launch workspace file) := by
  refine Within.bind loadVariables_timeless fun loaded => Within.bind Within.ofExcept fun _ => ?_
  cases file with
  | some p => exact Within.bind Within.pure fun _ => Within.bind loadFile_timeless fun _ => Within.pure
  | none =>
      exact Within.bind findFile_timeless fun _ => Within.bind loadFile_timeless fun _ => Within.pure

end ScopeConfig

theorem loadValid_timeless : Within Action.Timeless (loadValid launch workspace file expected) := by
  refine Within.bind ScopeConfig.load_timeless fun loaded => ?_
  split
  split
  · exact Within.throw
  · exact Within.bind (Within.forM fun _ => Within.perform trivial) fun _ => Within.pure

theorem loadValid_within : Within Action.Passive (loadValid launch workspace file expected) :=
  loadValid_timeless.mono fun _ => Action.Timeless.passive

theorem warnings_within {lines : List String} : Within Action.Passive (lines.forM warn) :=
  Within.forM fun _ => Within.perform trivial

theorem emit_timeless {text : String} : Within Action.Timeless (emit text) :=
  Within.bind (Within.perform trivial) fun _ => Within.orFail

theorem emit_within {text : String} : Within Action.Passive (emit text) :=
  emit_timeless.mono fun _ => Action.Timeless.passive

theorem report_within {text line : String} :
    Within Action.Passive (emit text >>= fun _ => Job.tell line) :=
  Within.bind emit_within fun _ => Within.perform trivial

theorem freshIds_within {n : Nat} : Within Action.Passive (freshIds n) := by
  induction n with
  | zero => exact Within.pure
  | succ n ih => exact Within.bind (Within.perform trivial) fun _ => Within.bind ih fun _ => Within.pure

theorem showTemplate_within {framework : String} {ds : List Definition} :
    Within Action.Passive (showTemplate framework ds) := by
  unfold showTemplate
  split
  · exact Within.throw
  · exact emit_within

namespace Bundle

variable {b : Bundle} {names : List String}

theorem common_within : Within Action.Harmless (common launch) := by
  unfold common
  split
  · exact Within.throw
  · refine Within.bind (Within.perform (.inr ⟨_, rfl⟩)) fun _ => Within.bind Within.orFail fun _ => ?_
    exact Within.pure

theorem readFiles_within : Within Action.Passive (b.readFiles names) := by
  induction names with
  | nil => exact Within.pure
  | cons name names ih =>
      refine Within.bind (Within.perform trivial) fun answer => Within.bind Within.orFail fun text => ?_
      split
      · exact ih
      · exact Within.bind ih fun _ => Within.pure
      · exact Within.throw

theorem fileNames_within : Within Action.Passive (b.fileNames names) := by
  induction names with
  | nil => exact Within.pure
  | cons name names ih =>
      unfold fileNames
      split
      · refine Within.bind (Within.perform trivial) fun isFile => ?_
        split
        · exact Within.bind ih fun _ => Within.pure
        · exact ih
      · exact ih

theorem definitions_within : Within Action.Passive b.definitions := by
  refine Within.bind (Within.perform trivial) fun answer => Within.bind Within.orFail fun found => ?_
  refine Within.bind fileNames_within fun names => Within.bind readFiles_within fun ds => ?_
  split
  · exact Within.throw
  · exact Within.pure

end Bundle

theorem loadDefinitions_within {directory : Option Path} :
    Within Action.Harmless (loadDefinitions launch directory) := by
  have read (b : Bundle) : Within Action.Harmless b.definitions :=
    Bundle.definitions_within.mono fun _ => .inl
  cases directory with
  | some directory => exact read _
  | none => exact Within.bind Bundle.common_within read

end AssessmentPlans
