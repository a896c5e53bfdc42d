import AssessmentPlans.Instant.Format
import AssessmentPlans.Program

/-! What actions do to the world, as far as programs can see it. -/
namespace AssessmentPlans

/-- A line beside the output. -/
inductive Message where
  | notice (line : String)
  | warning (line : String)
  deriving DecidableEq

/-- The files, the place where relative paths begin, the time, how many identifiers
have been given, and what has been written: messages last first. -/
structure World where
  files : Files
  here : Trail
  time : Instant
  given : Nat
  identifier : Nat → String
  output : String
  back : List Message

namespace World

def messages (w : World) : List Message := w.back.reverse

/-- What has been warned of, in order. -/
def warnings (w : World) : List String :=
  w.messages.filterMap fun
    | .warning line => some line
    | .notice _ => none

/-- The world with other files, unless there is an error. -/
def withFiles (w : World) : Except FileError Files → Except FileError Unit × World
  | .ok files => (.ok (), { w with files })
  | .error e => (.error e, w)

/-- Answers an action. -/
def perform (w : World) : (action : Action) → action.Answer × World
  | .isPresent p => (w.files.isPresent w.here p, w)
  | .isFile p => (w.files.isFile w.here p, w)
  | .readText p => (w.files.readText w.here p, w)
  | .readLines p => (w.files.readLines w.here p, w)
  | .list p => (w.files.list w.here p, w)
  | .makeDirectory p =>
    let (result, files) := w.files.makeDirectory w.here p
    (result, { w with files })
  | .create p => w.withFiles (w.files.create w.here p)
  | .write p text => w.withFiles (w.files.write w.here p text)
  | .sync _ => (.ok (), w)
  | .rename p q => w.withFiles (w.files.rename w.here p q)
  | .remove p => w.withFiles (w.files.remove w.here p)
  | .now => (w.time, w)
  | .freshId => (w.identifier w.given, { w with given := w.given + 1 })
  | .print text => (.ok (), { w with output := w.output ++ text })
  | .tell line => ((), { w with back := .notice line :: w.back })
  | .warn line => ((), { w with back := .warning line :: w.back })

end World

/-- Runs a program to its end. -/
def Program.run {α} (w : World) : Program α → α × World
  | .done a => (a, w)
  | .act action next =>
    let (answer, w) := w.perform action
    (next answer).run w

/-- Runs a job to its end. -/
def World.run {α} (w : World) (job : Job α) : Except Fault α × World := (ExceptT.run job).run w

end AssessmentPlans
