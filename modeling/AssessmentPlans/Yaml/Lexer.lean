import AssessmentPlans.Yaml.Block
import AssessmentPlans.Yaml.Directive
import AssessmentPlans.Yaml.Plain
import AssessmentPlans.Yaml.Quoted

/-! Cutting a YAML text into tokens. That something was a key is seen only at the
colon behind it, so tokens that may still become keys are held back. -/
namespace AssessmentPlans.Yaml

/-- A place where a key may have begun: the number of its first token, and whether
nothing but a key can stand there. -/
structure Candidate where
  required : Bool
  number : Nat
  index : Nat
  line : Nat
  column : Nat

/-- A key is not longer than this, and ends in the line where it begins. -/
def keyLimit : Nat := 1024

/-- The state between two tokens. `indents` holds the columns of the open blocks,
`candidate` and `outer` the candidates of the innermost and the enclosing flow
collections. -/
structure Lexer where
  cursor : Cursor
  queue : List Token
  taken : Nat
  indents : List Int
  keyAllowed : Bool
  candidate : Option Candidate
  outer : List (Option Candidate)
  ended : Bool

namespace Lexer

def ofChars (cs : List Char) : Lexer :=
  { cursor := .ofChars cs, queue := [], taken := 0, indents := [], keyAllowed := true,
    candidate := none, outer := [], ended := false }

def inFlow (lx : Lexer) : Bool := !lx.outer.isEmpty

/-- The column of the innermost block, negative outside all blocks. -/
def indent (lx : Lexer) : Int := lx.indents.head?.getD (-1)

def push (t : Token) (lx : Lexer) : Lexer := { lx with queue := lx.queue ++ [t] }

/-- Puts a token before the one of the given number. -/
def insertAt (number : Nat) (t : Token) (lx : Lexer) : Lexer :=
  let n := number - lx.taken
  { lx with queue := lx.queue.take n ++ t :: lx.queue.drop n }

/-- Whether the text has gone on too far for this to become a key. -/
def isStale (c : Cursor) (k : Candidate) : Bool :=
  k.line < c.line || k.index + keyLimit < c.index

def refresh (c : Cursor) : Option Candidate → Except Fault (Option Candidate)
  | none => .ok none
  | some k =>
    if !isStale c k then .ok (some k)
    else if k.required then .error .keyWithoutValue
    else .ok none

/-- Gives up the candidates that are stale. -/
def dropStale (lx : Lexer) : Except Fault Lexer := do
  let candidate ← refresh lx.cursor lx.candidate
  let outer ← lx.outer.mapM (refresh lx.cursor)
  return { lx with candidate, outer }

/-- Gives up the innermost candidate. -/
def dropCandidate (lx : Lexer) : Except Fault Lexer :=
  if lx.candidate.any (·.required) then .error .keyWithoutValue
  else .ok { lx with candidate := none }

/-- Notes that a key may begin with the next token. -/
def noteCandidate (lx : Lexer) : Except Fault Lexer :=
  if lx.keyAllowed then do
    let c := lx.cursor
    let k : Candidate :=
      ⟨!lx.inFlow && lx.indent == c.column, lx.taken + lx.queue.length, c.index, c.line, c.column⟩
    let lx ← lx.dropCandidate
    return { lx with candidate := some k }
  else .ok lx

/-- Opens a block at a column further in than the innermost one. -/
def openBlock (column : Nat) (add : Lexer → Lexer) (lx : Lexer) : Lexer :=
  if !lx.inFlow && lx.indent < column then
    add { lx with indents := (column : Int) :: lx.indents }
  else lx

/-- Closes the blocks that are further in than the column. -/
def closeBlocks (column : Int) (lx : Lexer) : Lexer :=
  if lx.inFlow then lx
  else
    let closed := lx.indents.takeWhile (column < ·)
    { lx with
      queue := lx.queue ++ closed.map fun _ => Token.blockEnd
      indents := lx.indents.drop closed.length }

/-- Passes over space, comments and line breaks. -/
def skipSpace : Nat → Lexer → Lexer
  | 0, lx => lx
  | fuel + 1, lx =>
    let c := lx.cursor
    let c := if c.index == 0 && c.stands '\ufeff' then c.skip 1 else c
    let tabs := lx.inFlow || !lx.keyAllowed
    let c := (c.skipWhile fun x => x == ' ' || (tabs && x == '\t')).skipComment
    if c.standsBreak then
      skipSpace fuel { lx with cursor := c.skipBreak, keyAllowed := lx.keyAllowed || !lx.inFlow }
    else { lx with cursor := c }

/-- Ends everything at the end of the text, which also ends its last line. -/
def fetchEnd (lx : Lexer) : Except Fault Lexer := do
  let c := lx.cursor
  let lx ← (lx.closeBlocks (-1)).dropCandidate
  return { (lx.push .streamEnd) with
    cursor := if c.column == 0 then c else { c with line := c.line + 1, column := 0 }
    keyAllowed := false, ended := true }

def fetchDirective (lx : Lexer) : Except Fault Lexer := do
  let lx ← (lx.closeBlocks (-1)).dropCandidate
  let (t, cursor) ← readDirective lx.cursor
  return { (lx.push t) with cursor, keyAllowed := false }

def fetchDocumentMark (t : Token) (lx : Lexer) : Except Fault Lexer := do
  let lx ← (lx.closeBlocks (-1)).dropCandidate
  return { (lx.push t) with cursor := lx.cursor.skip 3, keyAllowed := false }

def fetchFlowStart (t : Token) (lx : Lexer) : Except Fault Lexer := do
  let lx ← lx.noteCandidate
  return { (lx.push t) with
    cursor := lx.cursor.skip 1, candidate := none, outer := lx.candidate :: lx.outer,
    keyAllowed := true }

def fetchFlowEnd (t : Token) (lx : Lexer) : Except Fault Lexer := do
  let lx ← lx.dropCandidate
  let (candidate, outer) := match lx.outer with
    | [] => (lx.candidate, [])
    | k :: outer => (k, outer)
  return { (lx.push t) with cursor := lx.cursor.skip 1, candidate, outer, keyAllowed := false }

def fetchFlowEntry (lx : Lexer) : Except Fault Lexer := do
  let lx ← lx.dropCandidate
  return { (lx.push .flowEntry) with cursor := lx.cursor.skip 1, keyAllowed := true }

def fetchBlockEntry (lx : Lexer) : Except Fault Lexer := do
  if !lx.inFlow && !lx.keyAllowed then throw .entryNotAllowed
  let lx ← (lx.openBlock lx.cursor.column (push .blockSequenceStart)).dropCandidate
  return { (lx.push .blockEntry) with cursor := lx.cursor.skip 1, keyAllowed := true }

def fetchKey (lx : Lexer) : Except Fault Lexer := do
  if !lx.inFlow && !lx.keyAllowed then throw .keyNotAllowed
  let lx ← (lx.openBlock lx.cursor.column (push .blockMappingStart)).dropCandidate
  return { (lx.push .key) with cursor := lx.cursor.skip 1, keyAllowed := !lx.inFlow }

/-- A colon. What the candidate stands for has been a key then, and may have
begun a mapping. -/
def fetchValue (lx : Lexer) : Except Fault Lexer := do
  let lx ← match lx.candidate with
    | some k =>
      let lx := (lx.insertAt k.number .key).openBlock k.column (insertAt k.number .blockMappingStart)
      pure { lx with candidate := none, keyAllowed := false }
    | none =>
      if !lx.inFlow && !lx.keyAllowed then throw .valueNotAllowed
      let lx := lx.openBlock lx.cursor.column (push .blockMappingStart)
      pure { lx with keyAllowed := !lx.inFlow }
  return { (lx.push .value) with cursor := lx.cursor.skip 1 }

/-- Reads a token that may be the beginning of a key. -/
def fetchNode (read : Cursor → Except Fault (Token × Cursor)) (lx : Lexer) : Except Fault Lexer := do
  let lx ← lx.noteCandidate
  let (t, cursor) ← read lx.cursor
  return { (lx.push t) with cursor, keyAllowed := false }

def fetchBlock (literal : Bool) (lx : Lexer) : Except Fault Lexer := do
  let lx ← lx.dropCandidate
  let (text, cursor) ← readBlock literal lx.indent lx.cursor
  let style := if literal then ScalarStyle.literal else .folded
  return { (lx.push (.scalar text style)) with cursor, keyAllowed := true }

/-- A key may begin again after a plain scalar if its line has ended. -/
def fetchPlain (lx : Lexer) : Except Fault Lexer := do
  let lx ← lx.noteCandidate
  let (text, ended, cursor) ← readPlain lx.inFlow lx.indent lx.cursor
  return { (lx.push (.scalar text .plain)) with cursor, keyAllowed := ended }

def readQuotedToken (single : Bool) (c : Cursor) : Except Fault (Token × Cursor) := do
  let (text, c) ← readQuoted single c
  return (.scalar text (if single then .single else .double), c)

/-- Reads the token that begins here. -/
def fetchToken (lx : Lexer) : Except Fault Lexer :=
  let c := lx.cursor
  match c.peek with
  | none => lx.fetchEnd
  | some x =>
    if c.column == 0 && x == '%' then lx.fetchDirective
    else if c.standsMark '-' then lx.fetchDocumentMark .documentStart
    else if c.standsMark '.' then lx.fetchDocumentMark .documentEnd
    else if x == '[' then lx.fetchFlowStart .flowSequenceStart
    else if x == '\x7b' then lx.fetchFlowStart .flowMappingStart
    else if x == ']' then lx.fetchFlowEnd .flowSequenceEnd
    else if x == '\x7d' then lx.fetchFlowEnd .flowMappingEnd
    else if x == ',' then lx.fetchFlowEntry
    else if x == '-' && endsWord (c.ahead 1) then lx.fetchBlockEntry
    else if x == '?' && (lx.inFlow || endsWord (c.ahead 1)) then lx.fetchKey
    else if x == ':' && (lx.inFlow || endsWord (c.ahead 1)) then lx.fetchValue
    else if x == '*' then lx.fetchNode fun c => (readName c).map fun (n, c) => (.alias n, c)
    else if x == '&' then lx.fetchNode fun c => (readName c).map fun (n, c) => (.anchor n, c)
    else if x == '!' then lx.fetchNode (readTag lx.inFlow)
    else if x == '|' && !lx.inFlow then lx.fetchBlock true
    else if x == '>' && !lx.inFlow then lx.fetchBlock false
    else if x == '\'' then lx.fetchNode (readQuotedToken true)
    else if x == '"' then lx.fetchNode (readQuotedToken false)
    else if c.standsPlain lx.inFlow then lx.fetchPlain
    else .error .unexpectedCharacter

/-- Goes on to the next token and reads it. -/
def fetch (lx : Lexer) : Except Fault Lexer := do
  let lx ← (lx.skipSpace (lx.cursor.rest.length + 1)).dropStale
  (lx.closeBlocks lx.cursor.column).fetchToken

/-- Whether the first token of the queue may still become a key. -/
def heldBack (lx : Lexer) : Bool :=
  (lx.candidate :: lx.outer).any fun k => k.any (·.number == lx.taken)

/-- All tokens from here on, up to the end of the text or the first fault. -/
def tokens : Nat → Lexer → List Token × Option Fault
  | 0, _ => ([], none)
  | fuel + 1, lx =>
    match lx.queue with
    | [] =>
      if lx.ended then ([], none)
      else match lx.fetch with
        | .ok lx => tokens fuel lx
        | .error fault => ([], some fault)
    | t :: queue =>
      match lx.dropStale with
      | .error fault => ([], some fault)
      | .ok lx =>
        if lx.heldBack then
          match lx.fetch with
          | .ok lx => tokens fuel lx
          | .error fault => ([], some fault)
        else
          let (ts, fault) := tokens fuel { lx with queue, taken := lx.taken + 1 }
          (t :: ts, fault)

end Lexer

/-- The characters that may stand in a text. -/
def isAllowed (c : Char) : Bool :=
  let n := c.toNat
  c == '\t' || c == '\n' || c == '\r' || (0x20 ≤ n && n ≤ 0x7E) || n == 0x85 ||
    (0xA0 ≤ n && n ≤ 0xD7FF) || (0xE000 ≤ n && n ≤ 0xFFFD) || 0x10000 ≤ n

/-- The tokens of a text before its first fault, which is missing if there is
none. A byte order mark at the beginning is not part of the text. -/
def tokensOf (s : String) : List Token × Option Fault :=
  let cs := match s.toList with
    | '\ufeff' :: cs => cs
    | cs => cs
  if cs.all isAllowed then Lexer.tokens (12 * cs.length + 12) (.ofChars cs)
  else ([], some .controlCharacter)

end AssessmentPlans.Yaml
