import AssessmentPlans.Fault
import AssessmentPlans.Files.Basic
import AssessmentPlans.Instant.Basic

/-! Programs as data: a program is the next action and what follows each of its
answers. What actions do is said elsewhere, so the same program can be run, stopped
between any two actions, or interleaved with another. -/
namespace AssessmentPlans

/-- What a program may do, one indivisible step each. -/
inductive Action where
  | isPresent (p : Path)
  | isFile (p : Path)
  | readText (p : Path)
  | readLines (p : Path)
  | list (p : Path)
  | makeDirectory (p : Path)
  | create (p : Path)
  | write (p : Path) (text : String)
  /-- Waits until what was written is safe. -/
  | sync (p : Path)
  | rename (p q : Path)
  | remove (p : Path)
  | now
  /-- An identifier that was never given before. -/
  | freshId
  | print (text : String)
  /-- A line for the user beside the output. -/
  | tell (line : String)
  | warn (line : String)
  deriving DecidableEq

/-- What an action is answered. -/
abbrev Action.Answer : Action → Type
  | .isPresent _ | .isFile _ => Bool
  | .readText _ => Except FileError String
  | .readLines _ => Except FileError (String × Option FileError)
  | .list _ => Except FileError (List String)
  | .makeDirectory _ | .create _ | .write _ _ | .sync _ | .rename _ _ | .remove _ | .print _ =>
    Except FileError Unit
  | .now => Instant
  | .freshId => String
  | .tell _ | .warn _ => Unit

inductive Program (α : Type) : Type where
  | done (a : α)
  | act (action : Action) (next : action.Answer → Program α)

namespace Program

def bind {α β} (p : Program α) (f : α → Program β) : Program β :=
  match p with
  | .done a => f a
  | .act action next => .act action fun answer => (next answer).bind f

instance : Monad Program where
  pure := .done
  bind := bind

theorem bind_done {α} (p : Program α) : p.bind .done = p := by
  induction p with
  | done a => rfl
  | act action next ih => simp only [bind, ih]

theorem bind_assoc {α β γ} (p : Program α) (f : α → Program β) (g : β → Program γ) :
    (p.bind f).bind g = p.bind fun a => (f a).bind g := by
  induction p with
  | done a => rfl
  | act action next ih => simp only [bind, ih]

instance : LawfulMonad Program :=
  LawfulMonad.mk' Program bind_done (fun _ _ => rfl) bind_assoc

/-- The program of a single action. -/
def perform (action : Action) : Program action.Answer := .act action .done

end Program

/-- A program that may fail. -/
abbrev Job := ExceptT Fault Program

namespace Job

def perform (action : Action) : Job action.Answer := ExceptT.lift (.perform action)

/-- Makes a fault of the error of a file action. -/
def orFail {α} (fault : FileError → Fault) : Except FileError α → Job α
  | .ok a => pure a
  | .error e => throw (fault e)

/-- The fault of an action that is not told apart. -/
def ioFault (e : FileError) : Fault := .io e.message

def ofExcept {α} : Except Fault α → Job α
  | .ok a => pure a
  | .error fault => throw fault

/-- What a job ends with, whether it fails or not. -/
def attempt {α} (job : Job α) : Job (Except Fault α) := ExceptT.lift (ExceptT.run job)

def isPresent (p : Path) : Job Bool := perform (.isPresent p)

def warn (line : String) : Job Unit := perform (.warn line)

def tell (line : String) : Job Unit := perform (.tell line)

end Job
end AssessmentPlans
