import AssessmentPlans.Command.Session
import AssessmentPlans.Files.Bytes
import AssessmentPlans.Uuid
import Std.Time.DateTime.Timestamp

/-! The program on the system that it runs on. Nothing is decided here: every action
is one call of the system. -/
namespace AssessmentPlans

/-- The error of a call, with the number of its cause. -/
def FileError.numbered (code : UInt32) (details : String) : FileError :=
  let number := if code.toNat < Nat.pow 2 31 then code.toNat else Nat.pow 2 32 - code.toNat
  match number with
  | 2 => .missing
  | 17 => .alreadyExists
  | 20 => .notDirectory
  | 21 => .isDirectory
  | 36 => .nameTooLong
  | n => .other s!"{details.capitalize} (os error {n})"

/-- What went wrong in a call, as programs are told it. -/
def FileError.ofCall : IO.Error → FileError
  | .noFileOrDirectory _ code details | .interrupted _ code details
  | .alreadyExists _ code details | .invalidArgument _ code details
  | .permissionDenied _ code details | .resourceExhausted _ code details
  | .inappropriateType _ code details | .noSuchThing _ code details
  | .otherError code details | .resourceBusy code details | .resourceVanished code details
  | .unsupportedOperation code details | .hardwareFault code details
  | .unsatisfiedConstraints code details | .illegalOperation code details
  | .protocolError code details | .timeExpired code details => .numbered code details
  | e => .other (toString e)

/-- Makes a call, keeping its error. -/
def attemptCall {α} (call : IO α) : IO (Except FileError α) := do
  match ← call.toBaseIO with
  | .ok a => return .ok a
  | .error e => return .error (.ofCall e)

/-- What a file holds. -/
def readEntry (p : Path) : IO (Except FileError Entry) :=
  attemptCall do return .ofBytes (← IO.FS.readBinFile p.text)

/-- Answers an action by calling the system. -/
def Action.call : (action : Action) → IO action.Answer
  | .isPresent p => do ((← IO.currentDir) / p.text).pathExists
  | .isFile p => do
    match ← ((← IO.currentDir) / p.text).metadata.toBaseIO with
    | .ok found => return found.type == .file
    | .error _ => return false
  | .readText p => do
    match ← readEntry p with
    | .ok (.text s) => return .ok s
    | .ok _ => return .error .notText
    | .error e => return .error e
  | .readLines p => do
    match ← readEntry p with
    | .ok (.text s) => return .ok (s, none)
    | .ok (.binary start) => return .ok (start, some .notText)
    | .ok .directory => return .error .isDirectory
    | .error e => return .error e
  | .list p => attemptCall do
    return (← ((← IO.currentDir) / p.text).readDir).toList.map (·.fileName)
  | .makeDirectory p => attemptCall (IO.FS.createDirAll p.text)
  | .create p => attemptCall (IO.FS.writeFile p.text "")
  | .write p text => attemptCall (IO.FS.writeFile p.text text)
  | .sync p => attemptCall do (← IO.FS.Handle.mk p.text .append).flush
  | .rename p q => attemptCall (IO.FS.rename p.text q.text)
  | .remove p => attemptCall (IO.FS.removeFile p.text)
  | .now => do
    let time ← Std.Time.Timestamp.now
    return .ofNanos time.toNanosecondsSinceUnixEpoch.val
  | .freshId => do
    return Uuid.random ((← IO.getRandomBytes 16).toList.map (·.toNat))
  | .print text => attemptCall do
    let out ← IO.getStdout
    out.putStr text
    out.flush
  | .tell line => IO.eprintln line
  | .warn line => IO.eprintln ("WARN " ++ line)

/-- Runs a program on the system. -/
def Program.callAll {α} : Program α → IO α
  | .done a => return a
  | .act action next => do (next (← action.call)).callAll

/-- The first word of a file of the system, or nothing. -/
def firstWord (file : String) : IO String := do
  match ← (IO.FS.readFile file).toBaseIO with
  | .ok text => return String.ofList (text.toList.takeWhile fun c => c != ' ' && c != '\n')
  | .error _ => return ""

/-- The variables of this run. One that is not text is as good as not set. -/
def readVariables : IO DotEnv.Variables := do
  match ← (IO.FS.readBinFile "/proc/self/environ").toBaseIO with
  | .error _ => return []
  | .ok bytes =>
    let pieces := bytes.toList.splitOnP (· == 0)
    let texts := pieces.filterMap fun piece => String.fromUTF8? ⟨piece.toArray⟩
    return texts.filterMap fun text =>
      match Text.split '=' text with
      | name :: value :: more => some (name, "=".intercalate (value :: more))
      | _ => none

/-- What this run is given. -/
def Launch.ofSystem : IO Launch := do
  return {
    environment := ← readVariables
    directory := ⟨(← IO.currentDir).toString⟩
    host := ← firstWord "/proc/sys/kernel/hostname"
    number := ((← firstWord "/proc/self/stat").toNat?).getD 0
    terminal := ← (← IO.getStdout).isTty }

end AssessmentPlans

def main (args : List String) : IO UInt32 := do
  let code ← (AssessmentPlans.session (← AssessmentPlans.Launch.ofSystem) args).callAll
  return code.toUInt32
