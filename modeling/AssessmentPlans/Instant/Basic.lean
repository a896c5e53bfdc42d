/-! Points in time, counted in days and nanoseconds. -/
namespace AssessmentPlans

/-- Days since the beginning of 1970, the second of the day and its nanoseconds. A
leap second is counted as more than 10^9 nanoseconds of the second before it. -/
structure Instant where
  day : Int
  second : Nat
  nano : Nat
  deriving DecidableEq

namespace Instant

def secondsPerDay : Nat := 86400

def nanosPerSecond : Nat := 1000000000

def lt (a b : Instant) : Prop :=
  a.day < b.day ∨ a.day = b.day ∧
    (a.second < b.second ∨ a.second = b.second ∧ a.nano < b.nano)

instance : LT Instant := ⟨lt⟩

instance (a b : Instant) : Decidable (a < b) := by
  change Decidable (lt a b)
  unfold lt
  infer_instance

/-- The instant so many nanoseconds after the beginning of 1970. -/
def ofNanos (n : Int) : Instant :=
  let seconds := n.fdiv nanosPerSecond
  ⟨seconds.fdiv secondsPerDay, (seconds.fmod secondsPerDay).toNat, (n.fmod nanosPerSecond).toNat⟩

/-- A later instant. -/
def addSeconds (n : Nat) (t : Instant) : Instant :=
  let total := t.second + n
  ⟨t.day + (total / secondsPerDay : Nat), total % secondsPerDay, t.nano⟩

/-- Whether a leap second is running. -/
def isLeap (t : Instant) : Bool := nanosPerSecond ≤ t.nano

/-- The nanoseconds from `b` to `a`. A leap second counts where the time of day goes
past it. -/
def nanosSince (a b : Instant) : Int :=
  let days := (a.day - b.day) * secondsPerDay
  let seconds : Int := (a.second : Int) - b.second
  let leap : Int :=
    if b.second < a.second && b.isLeap then 1
    else if a.second < b.second && a.isLeap then -1
    else 0
  (days + seconds + leap) * nanosPerSecond + (a.nano : Int) - b.nano

/-- The whole seconds from `b` to `a`. -/
def secondsSince (a b : Instant) : Int := (a.nanosSince b).tdiv nanosPerSecond

end Instant
end AssessmentPlans
