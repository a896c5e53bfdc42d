import AssessmentPlans.Definition.Format
import AssessmentPlans.Launch
import AssessmentPlans.Program

/-! Bundles: directories with component definitions, one in a file. -/
namespace AssessmentPlans

/-- A directory of definitions, and the one that it belongs to. -/
structure Bundle where
  root : Path
  directory : Path
  deriving DecidableEq

namespace Bundle

/-- The bundle in a directory. -/
def ofDirectory (directory : Path) : Bundle := ⟨directory.parent?.getD ⟨"."⟩, directory⟩

/-- The bundle in the user's data. -/
def common? (launch : Launch) : Option Bundle :=
  launch.dataDirectory?.map fun directory =>
    let root := directory.child "complytime"
    ⟨root, root.child "bundles"⟩

def unavailable (doing : String) (p : Path) (e : FileError) : Fault :=
  .workspace (.unavailable (doing ++ " " ++ p.text ++ ": " ++ e.message))

/-- The user's bundle, which is made if it is not there. -/
def common (launch : Launch) : Job Bundle := do
  match common? launch with
  | none => throw (.workspace (.unavailable "cannot determine user data directory"))
  | some b =>
    (← Job.perform (.makeDirectory b.directory)) |> Job.orFail (unavailable "Failed to create" b.directory)
    return b

/-- What a file of a bundle says: a definition, or a fault of one. A text that is not
JSON, or JSON without a definition in it, says nothing. -/
def definition? (text : String) : Option (Except Json.Fault Definition) :=
  match Json.parse text with
  | .error _ => none
  | .ok v =>
    (v.get? "component-definition").map fun _ =>
      (Definition.documentShape.readValue v).map Definition.ofDocument

/-- Reads the files of a bundle in the given order. -/
def readFiles (b : Bundle) : List String → Job (List Definition)
  | [] => return []
  | name :: names => do
    let path := b.directory.child name
    let text ← (← Job.perform (.readText path)) |> Job.orFail Job.ioFault
    match definition? text with
    | none => readFiles b names
    | some (.ok d) => return d :: (← readFiles b names)
    | some (.error fault) => throw (.plan (.unreadable fault.message (some path.text)))

/-- The names among the given ones that belong to files of definitions. -/
def fileNames (b : Bundle) : List String → Job (List String)
  | [] => return []
  | name :: names => do
    if Path.hasExtension "json" name then
      if ← Job.perform (.isFile (b.directory.child name)) then
        return name :: (← fileNames b names)
    fileNames b names

/-- All definitions of a bundle, by the names of their files. -/
def definitions (b : Bundle) : Job (List Definition) := do
  let names ← (← Job.perform (.list b.directory)) |> Job.orFail (unavailable "Failed to read" b.directory)
  let names ← b.fileNames names
  let ds ← b.readFiles (names.mergeSort (· ≤ ·))
  if ds.isEmpty then throw (.plan (.noDefinitions b.directory.text)) else return ds

end Bundle
end AssessmentPlans
