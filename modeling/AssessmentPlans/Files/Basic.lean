import AssessmentPlans.Files.Bytes
import AssessmentPlans.Path

/-! A tree of files, and what the actions on files do to it. -/
namespace AssessmentPlans

/-- The names that lead from the root to a place in the tree. -/
abbrev Trail := List String

/-- What stands below the root, by its trail, each once. -/
structure Files where
  entries : List (Trail × Entry)

namespace Files

def empty : Files := ⟨[]⟩

/-- What stands at the end of a trail; the root is a directory. -/
def entry? (trail : Trail) (f : Files) : Option Entry :=
  if trail = [] then some .directory else f.entries.lookup trail

def put (trail : Trail) (e : Entry) (f : Files) : Files :=
  ⟨(trail, e) :: f.entries.filter (·.1 ≠ trail)⟩

def erase (trail : Trail) (f : Files) : Files := ⟨f.entries.filter (·.1 ≠ trail)⟩

/-- The bytes that a name may have. -/
def nameLimit : Nat := 255

/-- Walks on from a place. Every step but the last must lead from a directory to
something that is there. -/
def walk (f : Files) : Trail → List String → Except FileError Trail
  | trail, [] => .ok trail
  | trail, name :: names =>
    match f.entry? trail with
    | none => .error .missing
    | some .directory =>
      if Path.isIdle name then walk f trail names
      else if name = ".." then walk f trail.dropLast names
      else if nameLimit < name.utf8ByteSize then .error .nameTooLong
      else walk f (trail ++ [name]) names
    | some _ => .error .notDirectory

/-- The trail of what a path leads to from `here`. Nothing has to stand there. -/
def locate (here : Trail) (p : Path) (f : Files) : Except FileError Trail :=
  if p.text = "" then .error .missing
  else f.walk (if p.isAbsolute then [] else here) p.pieces

/-- What stands at the end of a path. -/
def look (here : Trail) (p : Path) (f : Files) : Except FileError Entry := do
  match f.entry? (← f.locate here p) with
  | some e => return e
  | none => throw .missing

def isPresent (here : Trail) (p : Path) (f : Files) : Bool :=
  match f.look here p with
  | .ok _ => true
  | .error _ => false

/-- Whether a path leads to something other than a directory. -/
def isFile (here : Trail) (p : Path) (f : Files) : Bool :=
  match f.look here p with
  | .ok .directory => false
  | .ok _ => true
  | .error _ => false

/-- The text of a file up to the first line that is not text, and the error that
ends it there. -/
def readLines (here : Trail) (p : Path) (f : Files) :
    Except FileError (String × Option FileError) := do
  match ← f.look here p with
  | .text s => return (s, none)
  | .binary start => return (start, some .notText)
  | .directory => throw .isDirectory

/-- The text of a file that is one. -/
def readText (here : Trail) (p : Path) (f : Files) : Except FileError String := do
  match ← f.readLines here p with
  | (s, none) => return s
  | (_, some e) => throw e

/-- The name of what stands immediately in a directory. -/
def nameWithin? (directory trail : Trail) : Option String :=
  if trail.dropLast = directory then trail.getLast? else none

/-- The names in a directory, in no particular order. -/
def list (here : Trail) (p : Path) (f : Files) : Except FileError (List String) := do
  let trail ← f.locate here p
  match f.entry? trail with
  | some .directory => return f.entries.filterMap fun e => nameWithin? trail e.1
  | some _ => throw .notDirectory
  | none => throw .missing

/-- Makes the directories on the way that are not there. -/
def makeWay (f : Files) : Trail → List String → Except FileError Unit × Files
  | _, [] => (.ok (), f)
  | trail, name :: names =>
    if Path.isIdle name then makeWay f trail names
    else if name = ".." then makeWay f trail.dropLast names
    else if nameLimit < name.utf8ByteSize then (.error .nameTooLong, f)
    else
      let next := trail ++ [name]
      match f.entry? next with
      | none => makeWay (f.put next .directory) next names
      | some .directory => makeWay f next names
      | some _ => (.error (if names.all Path.isIdle then .alreadyExists else .notDirectory), f)

/-- Makes a directory, with those above it. -/
def makeDirectory (here : Trail) (p : Path) (f : Files) : Except FileError Unit × Files :=
  f.makeWay (if p.isAbsolute then [] else here) p.pieces

/-- Puts a text where a path leads, unless a directory is there. -/
def setText (here : Trail) (p : Path) (s : String) (f : Files) : Except FileError Files := do
  let trail ← f.locate here p
  match f.entry? trail with
  | some .directory => throw .isDirectory
  | _ => return f.put trail (.text s)

/-- Makes a file that is empty; one that is there loses what is in it. -/
def create (here : Trail) (p : Path) (f : Files) : Except FileError Files :=
  f.setText here p ""

/-- Writes the text of a file that has been made. -/
def write (here : Trail) (p : Path) (s : String) (f : Files) : Except FileError Files :=
  f.setText here p s

/-- Moves a file in one step to another place, over the file that may stand there. -/
def rename (here : Trail) (p q : Path) (f : Files) : Except FileError Files := do
  let source ← f.locate here p
  let target ← f.locate here q
  match f.entry? source, f.entry? target with
  | none, _ => throw .missing
  | some .directory, _ => throw .isDirectory
  | some _, some .directory => throw .isDirectory
  | some e, _ => return (f.erase source).put target e

/-- Removes a file. -/
def remove (here : Trail) (p : Path) (f : Files) : Except FileError Files := do
  let trail ← f.locate here p
  match f.entry? trail with
  | none => throw .missing
  | some .directory => throw .isDirectory
  | some _ => return f.erase trail

end Files
end AssessmentPlans
