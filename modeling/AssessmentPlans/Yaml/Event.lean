import AssessmentPlans.Yaml.Fault
import AssessmentPlans.Yaml.Token

/-! The events of a YAML text: scalars, and where collections begin and end. -/
namespace AssessmentPlans.Yaml

/-- A scalar, with its whole tag if it has one. -/
structure Scalar where
  text : String
  plain : Bool
  tag : Option String
  deriving DecidableEq

inductive Event where
  /-- A text without any document. -/
  | void
  | scalar (s : Scalar)
  /-- Stands for the node with that number among the anchored ones. -/
  | alias (number : Nat)
  | sequenceStart
  | sequenceEnd
  | mappingStart
  | mappingEnd
  deriving DecidableEq

/-- The events of the first document, up to the first fault. `anchored` holds the
places of anchored nodes by their numbers, and `surplus` tells whether anything
follows the document. -/
structure Stream where
  events : List Event
  anchored : List (Nat × Nat)
  broken : Option Fault
  surplus : Bool

/-- The state of reading events: the tokens left, the fault behind them, the
events so far, last first, the handles of the document, and the anchors with
their numbers. -/
structure Reading where
  tokens : List Token
  broken : Option Fault
  back : List Event
  count : Nat
  handles : List (String × String)
  anchors : List (String × Nat)
  anchored : List (Nat × Nat)

/-- A step of reading. What was read before a fault is kept. -/
abbrev Read := ExceptT Fault (StateM Reading)

namespace Read

/-- The next token, which stays in its place. -/
def peek : Read Token := do
  let r ← get
  match r.tokens with
  | t :: _ => return t
  | [] => throw (r.broken.getD .endOfText)

def skip : Read Unit := modify fun r => { r with tokens := r.tokens.tail }

def emit (e : Event) : Read Unit :=
  modify fun r => { r with back := e :: r.back, count := r.count + 1 }

/-- Passes over the next token if it is the given one. -/
def accept (t : Token) : Read Bool := do
  if (← peek) = t then
    skip
    return true
  else return false

/-- Passes over the comma before a further item, unless the collection ends. -/
def separate (close : Token) : Read Unit := do
  if (← peek) ≠ close then
    if !(← accept .flowEntry) then throw .expectedFlowEnd

/-- Names the next event. The number of an anchor counts the names before it. -/
def setAnchor (name : String) : Read Unit :=
  modify fun r =>
    let number := r.anchors.length
    { r with
      anchors := (name, number) :: r.anchors.filter (·.1 ≠ name)
      anchored := (number, r.count) :: r.anchored }

/-- Begins a node, which may have a name. -/
def emitNode (anchor : Option String) (e : Event) : Read Unit := do
  if let some name := anchor then setAnchor name
  emit e

def emptyScalar (tag : Option String) : Event := .scalar ⟨"", true, tag⟩

def emitEmpty : Read Unit := emit (emptyScalar none)

def emitAlias (name : String) : Read Unit := do
  match (← get).anchors.find? (·.1 = name) with
  | some (_, number) => emit (.alias number)
  | none => throw .unknownAnchor

/-- The whole tag for a handle and a suffix. -/
def wholeTag (handle suffix : String) : Read String := do
  if handle = "" then return suffix
  match (← get).handles.find? (·.1 = handle) with
  | some (_, start) => return start ++ suffix
  | none => throw .undefinedHandle

/-- Reads what stands before a node, in either order: its anchor and its tag. -/
def readProperties : Read (Option String × Option (String × String)) := do
  match ← peek with
  | .anchor name =>
    skip
    match ← peek with
    | .tag handle suffix =>
      skip
      return (some name, some (handle, suffix))
    | _ => return (some name, none)
  | .tag handle suffix =>
    skip
    match ← peek with
    | .anchor name =>
      skip
      return (some name, some (handle, suffix))
    | _ => return (none, some (handle, suffix))
  | _ => return (none, none)

/-- A scalar with its style and tag. A lone exclamation mark is no tag. -/
def scalarEvent (text : String) (style : ScalarStyle) (tag : Option String) : Event :=
  .scalar ⟨text, style = .plain, tag.filter (· ≠ "!")⟩

/-- The tokens that leave the place of a node empty. -/
inductive Place where
  | blockEntry
  | indentlessEntry
  | blockMember
  | flowItem
  | flowPairKey
  | flowPairValue
  | flowMemberKey
  | flowMemberValue

def Place.isEmptyBefore : Place → Token → Bool
  | .blockEntry, t => t = .blockEntry || t = .blockEnd
  | .indentlessEntry, t => t = .blockEntry || t = .key || t = .value || t = .blockEnd
  | .blockMember, t => t = .key || t = .value || t = .blockEnd
  | .flowItem, _ => false
  | .flowPairKey, t => t = .value || t = .flowEntry || t = .flowSequenceEnd
  | .flowPairValue, t => t = .flowEntry || t = .flowSequenceEnd
  | .flowMemberKey, t => t = .value || t = .flowEntry || t = .flowMappingEnd
  | .flowMemberValue, t => t = .flowEntry || t = .flowMappingEnd

mutual

/-- Reads a node. Block collections may stand here if `block` holds, and entries
that are not indented further than their key if `indentless` does. -/
def readNode (block indentless : Bool) : Nat → Read Unit
  | 0 => throw .endOfText
  | fuel + 1 => do
    if let .alias name ← peek then
      emitAlias name
      skip
      return
    let (anchor, tagParts) ← readProperties
    let tag ← tagParts.mapM fun (handle, suffix) => wholeTag handle suffix
    match ← peek with
    | .blockEntry =>
      if indentless then
        emitNode anchor .sequenceStart
        readIndentless fuel
      else missing anchor tag
    | .scalar text style =>
      emitNode anchor (scalarEvent text style tag)
      skip
    | .flowSequenceStart =>
      emitNode anchor .sequenceStart
      skip
      readFlowSequence true fuel
    | .flowMappingStart =>
      emitNode anchor .mappingStart
      skip
      readFlowMapping true fuel
    | .blockSequenceStart =>
      if block then
        emitNode anchor .sequenceStart
        skip
        readBlockSequence fuel
      else missing anchor tag
    | .blockMappingStart =>
      if block then
        emitNode anchor .mappingStart
        skip
        readBlockMapping fuel
      else missing anchor tag
    | _ => missing anchor tag

/-- A node of which there is nothing but its anchor or its tag. -/
def missing (anchor tag : Option String) : Read Unit :=
  if anchor.isSome || tag.isSome then emitNode anchor (emptyScalar tag) else throw .expectedNode

/-- Reads the node at a place, which may be empty. -/
def readPlace (place : Place) (block indentless : Bool) : Nat → Read Unit
  | 0 => throw .endOfText
  | fuel + 1 => do
    if place.isEmptyBefore (← peek) then emitEmpty else readNode block indentless fuel

def readBlockSequence : Nat → Read Unit
  | 0 => throw .endOfText
  | fuel + 1 => do
    if ← accept .blockEntry then
      readPlace .blockEntry true false fuel
      readBlockSequence fuel
    else if ← accept .blockEnd then emit .sequenceEnd
    else throw .expectedEntry

def readIndentless : Nat → Read Unit
  | 0 => throw .endOfText
  | fuel + 1 => do
    if ← accept .blockEntry then
      readPlace .indentlessEntry true false fuel
      readIndentless fuel
    else emit .sequenceEnd

def readBlockMapping : Nat → Read Unit
  | 0 => throw .endOfText
  | fuel + 1 => do
    if ← accept .key then
      readPlace .blockMember true true fuel
      if ← accept .value then readPlace .blockMember true true fuel else emitEmpty
      readBlockMapping fuel
    else if ← accept .blockEnd then emit .mappingEnd
    else throw .expectedKey

def readFlowSequence (first : Bool) : Nat → Read Unit
  | 0 => throw .endOfText
  | fuel + 1 => do
    if !first then separate .flowSequenceEnd
    if ← accept .flowSequenceEnd then emit .sequenceEnd
    else if (← peek) = .key then
      emit .mappingStart
      skip
      readFlowPair fuel
      readFlowSequence false fuel
    else
      readNode false false fuel
      readFlowSequence false fuel

/-- Reads a single member among the items of a sequence. -/
def readFlowPair : Nat → Read Unit
  | 0 => throw .endOfText
  | fuel + 1 => do
    if Place.flowPairKey.isEmptyBefore (← peek) then
      skip
      emitEmpty
    else readNode false false fuel
    if ← accept .value then readPlace .flowPairValue false false fuel else emitEmpty
    let _ ← peek
    emit .mappingEnd

def readFlowMapping (first : Bool) : Nat → Read Unit
  | 0 => throw .endOfText
  | fuel + 1 => do
    if !first then separate .flowMappingEnd
    if ← accept .flowMappingEnd then emit .mappingEnd
    else if ← accept .key then
      readPlace .flowMemberKey false false fuel
      if ← accept .value then readPlace .flowMemberValue false false fuel else emitEmpty
      readFlowMapping false fuel
    else
      readNode false false fuel
      let _ ← peek
      emitEmpty
      readFlowMapping false fuel

end

/-- Reads the directives before a document. -/
def readDirectives : Nat → Bool → Read Unit
  | 0, _ => throw .endOfText
  | fuel + 1, versioned => do
    match ← peek with
    | .version major minor =>
      if versioned then throw .repeatedDirective
      if major ≠ 1 || (minor ≠ 1 && minor ≠ 2) then throw .unsupportedVersion
      skip
      readDirectives fuel true
    | .tagHandle handle start =>
      if (← get).handles.any (·.1 = handle) then throw .repeatedDirective
      modify fun r => { r with handles := r.handles ++ [(handle, start)] }
      skip
      readDirectives fuel versioned
    | _ => return

/-- The handles of every document, unless its directives say otherwise. -/
def commonHandles : List (String × String) := [("!", "!"), ("!!", "tag:yaml.org,2002:")]

def isDirective : Token → Bool
  | .version _ _ => true
  | .tagHandle _ _ => true
  | _ => false

/-- Whether the content of a document is empty before this token. -/
def endsDocument (t : Token) : Bool :=
  isDirective t || t = .documentStart || t = .documentEnd || t = .streamEnd

/-- Reads the first document, if there is one. -/
def readDocument (fuel : Nat) : Read Unit := do
  let t ← peek
  if t = .streamEnd then emit .void
  else if !(isDirective t || t = .documentStart) then
    modify fun r => { r with handles := commonHandles }
    readNode true false fuel
  else
    readDirectives fuel false
    modify fun r => { r with handles := r.handles ++ commonHandles }
    if !(← accept .documentStart) then throw .expectedDocument
    if endsDocument (← peek) then emitEmpty else readNode true false fuel
  let _ ← peek

end Read

/-- Whether these tokens hold more than the end of the text. -/
def holdsMore (tokens : List Token) : Bool :=
  (tokens.dropWhile (· = .documentEnd)).head? ≠ some .streamEnd

/-- The events of a text's first document. -/
def Stream.ofTokens (tokens : List Token) (broken : Option Fault) : Stream :=
  let start : Reading := ⟨tokens, broken, [], 0, [], [], []⟩
  let (result, r) := (Read.readDocument (6 * tokens.length + 6)).run.run start
  let fault := match result with
    | .ok _ => none
    | .error fault => some fault
  ⟨r.back.reverse, r.anchored, fault, fault.isNone && holdsMore r.tokens⟩

end AssessmentPlans.Yaml
