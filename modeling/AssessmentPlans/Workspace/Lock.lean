import AssessmentPlans.Instant.Format
import AssessmentPlans.Json.Shape
import AssessmentPlans.Json.Printer

/-! Locks on a workspace: who holds it, and until when. -/
namespace AssessmentPlans
open Json (Value Shape)

structure Lock where
  id : String
  holder : String
  acquired : Instant
  expires : Instant
  deriving DecidableEq

namespace Lock

/-- The seconds for which a lock holds. -/
def lifetime : Nat := 300

def make (id holder : String) (now : Instant) : Lock := ⟨id, holder, now, now.addSeconds lifetime⟩

/-- A lock still holds at the very instant at which it expires. -/
def IsExpired (l : Lock) (now : Instant) : Prop := l.expires < now

instance (l : Lock) (now : Instant) : Decidable (l.IsExpired now) :=
  inferInstanceAs (Decidable (l.expires < now))

/-- The whole seconds that are left. -/
def secondsLeft (l : Lock) (now : Instant) : Nat := (l.expires.secondsSince now).toNat

def instantShape : Shape :=
  .text "an RFC 3339 formatted date and time string" fun s =>
    match Instant.ofText s with
    | .ok _ => none
    | .error fault => some fault.message

def shape : Shape :=
  .record "LockInfo" .closed (.ofList [
    ("lock_id", .required, .anyText),
    ("holder", .required, .anyText),
    ("acquired_at", .required, instantShape),
    ("expires_at", .required, instantShape)])

def ofValue? (v : Value) : Option Lock := do
  let acquired ← (Instant.ofText (v.getText "acquired_at")).toOption
  let expires ← (Instant.ofText (v.getText "expires_at")).toOption
  return ⟨v.getText "lock_id", v.getText "holder", acquired, expires⟩

def toValue (l : Lock) : Value :=
  .object [("lock_id", .text l.id), ("holder", .text l.holder),
    ("acquired_at", .text l.acquired.text), ("expires_at", .text l.expires.text)]

/-- Reads a lock file. -/
def ofText (s : String) : Except Json.Fault Lock := do
  match ofValue? (← shape.readText s) with
  | some l => return l
  | none => throw (.unreadable Instant.FormatFault.invalid.message)

/-- Text of a lock file. -/
def text (l : Lock) : String := l.toValue.pretty

end Lock
end AssessmentPlans
