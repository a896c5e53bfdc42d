import AssessmentPlans.Yaml.NodeProperty

/-! Directives: the lines before a document that tell how to read it. -/
namespace AssessmentPlans.Yaml

/-- A number of at most nine digits. -/
def readVersionNumber (c : Cursor) : Except Fault (Nat × Cursor) :=
  let (digits, c) := c.span Text.isDigit
  match Text.natural? 10 digits with
  | some n => if digits.length ≤ 9 then .ok (n, c) else .error .brokenDirective
  | none => .error .brokenDirective

def readVersion (c : Cursor) : Except Fault (Token × Cursor) := do
  let (major, c) ← readVersionNumber (c.skipWhile isGap)
  if !c.stands '.' then throw .brokenDirective
  let (minor, c) ← readVersionNumber (c.skip 1)
  return (.version major minor, c)

def readTagHandle (c : Cursor) : Except Fault (Token × Cursor) := do
  let (handle, c) ← readHandle (c.skipWhile isGap)
  if handle != ['!'] && (handle.length < 2 || handle.getLast? != some '!') then throw .brokenDirective
  if !c.standsGap then throw .brokenDirective
  let (start, c) ← readTagText true (c.skipWhile isGap)
  if start.isEmpty || !endsWord c.peek then throw .brokenDirective
  return (.tagHandle (String.ofList handle) (String.ofList start), c)

/-- Reads a directive from its percent sign on, with the rest of the line. -/
def readDirective (c : Cursor) : Except Fault (Token × Cursor) := do
  let (name, c) := (c.skip 1).span isWordChar
  if name.isEmpty || !endsWord c.peek then throw .brokenDirective
  let (token, c) ←
    match String.ofList name with
    | "YAML" => readVersion c
    | "TAG" => readTagHandle c
    | _ => throw .unknownDirective
  let c := (c.skipWhile isGap).skipComment
  if endsLine c.peek then return (token, c.skipBreak) else throw .brokenDirective

end AssessmentPlans.Yaml
