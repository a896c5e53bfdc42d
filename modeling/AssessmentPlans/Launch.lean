import AssessmentPlans.DotEnv
import AssessmentPlans.Path

/-! What a run of the program is given from outside. -/
namespace AssessmentPlans

/-- The environment variables, the working directory, the host and the number of
the run, and whether output goes to a terminal. -/
structure Launch where
  environment : DotEnv.Variables
  directory : Path
  host : String
  number : Nat
  terminal : Bool
  deriving DecidableEq

namespace Launch

def valueOf? (p : Launch) (name : String) : Option String := p.environment.lookup name

/-- Whether output is coloured: where it is forced, or on a terminal unless the user
has declined. -/
def colored (p : Launch) : Bool :=
  if (p.valueOf? "CLICOLOR_FORCE").any (· ≠ "0") then true
  else if (p.valueOf? "NO_COLOR").isSome then false
  else p.terminal && (p.valueOf? "CLICOLOR").all (· ≠ "0")

/-- Where the user's data lies. -/
def dataDirectory? (p : Launch) : Option Path :=
  let chosen := ((p.valueOf? "XDG_DATA_HOME").map Path.mk).filter Path.isAbsolute
  let home := ((p.valueOf? "HOME").filter (· ≠ "")).map fun h => (Path.mk h).join ⟨".local/share"⟩
  chosen.or home

end Launch
end AssessmentPlans
