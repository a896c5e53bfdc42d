import AssessmentPlans.Config.Basic
import AssessmentPlans.Yaml.Lexer
import AssessmentPlans.Yaml.Meaning
import AssessmentPlans.Yaml.Writer

/-! Scope configurations as YAML texts. One is written as the framework, then one line for
each control; much more can be read. -/
namespace AssessmentPlans
open Yaml (Event Stream)

/-- The fields of a configuration. Each may be called by several names. -/
inductive ConfigField where
  | framework
  | controls
  deriving DecidableEq

def ConfigField.ofKey? (key : String) : Option ConfigField :=
  if ["frameworkId", "frameworkID", "assessment_plan"].contains key then some .framework
  else if ["includeControls", "IncludeControls", "controls"].contains key then some .controls
  else none

/-- The name by which messages call a field. -/
def ConfigField.name : ConfigField → String
  | .framework => "frameworkId"
  | .controls => "includeControls"

/-- What is wrong with the text of a configuration. A mismatch is told with the
path to its place, which is empty at the root. -/
inductive ConfigTextFault where
  | form (fault : Yaml.Fault)
  | mismatch (path message : String)
  | duplicate (field : ConfigField)
  | missing (field : ConfigField)
  deriving DecidableEq

def ConfigTextFault.message : ConfigTextFault → String
  | .form fault => fault.message
  | .mismatch path message => if path = "" then message else path ++ ": " ++ message
  | .duplicate field => "duplicate field `" ++ field.name ++ "`"
  | .missing field => "missing field `" ++ field.name ++ "`"

namespace ScopeConfig

abbrev Result := Except ConfigTextFault

/-- What is wrong where the events end too early. -/
def cutOff (s : Stream) : ConfigTextFault := .form (s.broken.getD .endOfText)

/-- The next event and those behind it. -/
def nextEvent (s : Stream) : List Event → Result (Event × List Event)
  | [] => .error (cutOff s)
  | e :: es => .ok (e, es)

/-- A node and what stands behind its first event; for an alias this is the node
that it stands for. -/
def followAlias (s : Stream) (e : Event) (es : List Event) : Result (Event × List Event) :=
  match e with
  | .alias number =>
    match s.anchored.find? (·.1 = number) with
    | some (_, place) => nextEvent s (s.events.drop place)
    | none => .error (.form .unknownAnchor)
  | e => .ok (e, es)

/-- Any scalar is taken for its text. -/
def readText (s : Stream) (path : String) (es : List Event) : Result (String × List Event) := do
  let (e, es) ← nextEvent s es
  match ← followAlias s e es with
  | (.scalar t, _) => return (t.text, es)
  | (e, _) => throw (.mismatch path (e.mismatch "a string"))

/-- The items of a sequence from the given position on, and what stands behind
its end. -/
def readItems (s : Stream) (path : String) : Nat → Nat → List Event →
    Result (List String × List Event)
  | 0, _, _ => .error (cutOff s)
  | fuel + 1, index, es =>
    match es with
    | .sequenceEnd :: es => .ok ([], es)
    | es => do
      let (text, es) ← readText s (path ++ "[" ++ toString index ++ "]") es
      let (texts, es) ← readItems s path fuel (index + 1) es
      return (text :: texts, es)

/-- A sequence of texts. Nothing at all counts as an empty one. -/
def readTexts (s : Stream) (path : String) (es : List Event) : Result (List String × List Event) := do
  let (e, rest) ← nextEvent s es
  let aliased := match e with
    | .alias _ => true
    | _ => false
  match ← followAlias s e rest with
  | (.sequenceStart, es) =>
    let (texts, es) ← readItems s path (es.length + 1) 0 es
    return (texts, if aliased then rest else es)
  | (e, _) =>
    match e with
    | .scalar t =>
      if t.plain && t.text = "" then return ([], rest)
      else throw (.mismatch path (e.mismatch "a sequence"))
    | e => throw (.mismatch path (e.mismatch "a sequence"))

/-- Passes over a node within `depth` collections. -/
def skipNode (s : Stream) : Nat → List Event → Result (List Event)
  | _, [] => .error (cutOff s)
  | depth, e :: es =>
    match e with
    | .sequenceStart | .mappingStart => skipNode s (depth + 1) es
    | .sequenceEnd | .mappingEnd => if depth ≤ 1 then .ok es else skipNode s (depth - 1) es
    | _ => if depth = 0 then .ok es else skipNode s depth es

/-- The fields as far as they have been read. -/
structure Parts where
  framework : Option String
  controls : Option (List String)

/-- Reads the members of the mapping up to its end. -/
def readMembers (s : Stream) : Nat → Parts → List Event → Result (Parts × List Event)
  | 0, _, _ => .error (cutOff s)
  | fuel + 1, c, es =>
    match es with
    | .mappingEnd :: es => .ok (c, es)
    | es => do
      let (e, rest) ← nextEvent s es
      let path := match e with
        | .scalar t => t.text
        | _ => "?"
      match ← followAlias s e rest with
      | (.scalar t, _) =>
        match ConfigField.ofKey? t.text with
        | some .framework =>
          if c.framework.isSome then throw (.duplicate .framework)
          let (text, es) ← readText s path rest
          readMembers s fuel { c with framework := some text } es
        | some .controls =>
          if c.controls.isSome then throw (.duplicate .controls)
          let (texts, es) ← readTexts s path rest
          readMembers s fuel { c with controls := some texts } es
        | none => readMembers s fuel c (← skipNode s 0 rest)
      | (e, _) => throw (.mismatch "" (e.mismatch "field identifier"))

/-- The framework must be given; without controls there are none. -/
def Parts.complete (c : Parts) : Result ScopeConfig :=
  match c.framework with
  | some framework => .ok ⟨framework, c.controls.getD []⟩
  | none => .error (.missing .framework)

/-- The configuration that a document holds. An empty one is a mapping without
members. -/
def ofEvents (s : Stream) : Result ScopeConfig := do
  let (e, es) ← nextEvent s s.events
  match e with
  | .void => Parts.complete ⟨none, none⟩
  | .mappingStart =>
    let (c, _) ← readMembers s (es.length + 1) ⟨none, none⟩ es
    c.complete
  | .scalar t =>
    if t.plain && t.text = "" then Parts.complete ⟨none, none⟩
    else throw (.mismatch "" (e.mismatch "struct ScopeConfig"))
  | e => throw (.mismatch "" (e.mismatch "struct ScopeConfig"))

/-- The configuration of a stream, which holds one document. What the document
says is looked at first. -/
def ofStream (s : Stream) : Result ScopeConfig := do
  let c ← ofEvents s
  if let some fault := s.broken then throw (.form fault)
  if s.surplus then throw (.form .severalDocuments)
  return c

/-- Reads a configuration, with all its repetitions. -/
def ofYaml (text : String) : Result ScopeConfig :=
  let (tokens, fault) := Yaml.tokensOf text
  ofStream (.ofTokens tokens fault)

/-- Reads a configuration from a source, with the warning that it may cause. -/
def parse (text : String) (source : Option String) : Except ConfigFault (ScopeConfig × List String) :=
  match ofYaml text with
  | .ok c => .ok (c.dedup, c.repeatWarnings)
  | .error fault => .error (.unreadable ("YAML parse error: " ++ fault.message) source)

end ScopeConfig
def ScopeConfig.yamlChars (c : ScopeConfig) : List Char :=
  "frameworkId: ".toList ++ Yaml.scalarChars c.framework ++
    if c.controls.isEmpty then "includeControls: []\n".toList
    else "includeControls:\n".toList ++
      c.controls.flatMap fun id => '-' :: ' ' :: Yaml.scalarChars id

/-- The text of a configuration. -/
def ScopeConfig.yaml (c : ScopeConfig) : String := String.ofList c.yamlChars

end AssessmentPlans
