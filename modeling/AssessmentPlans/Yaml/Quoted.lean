import AssessmentPlans.Text.Characters
import AssessmentPlans.Yaml.Gap

/-! Scalars between quotes. Between single quotes a quote is written twice,
between double quotes a backslash begins an escape. -/
namespace AssessmentPlans.Yaml

/-- The character of an escape with one letter. -/
def escaped? : Char → Option Char
  | '0' => some '\x00'
  | 'a' => some '\x07'
  | 'b' => some '\x08'
  | 't' | '\t' => some '\t'
  | 'n' => some '\n'
  | 'v' => some '\x0b'
  | 'f' => some '\x0c'
  | 'r' => some '\r'
  | 'e' => some '\x1b'
  | ' ' => some ' '
  | '"' => some '"'
  | '/' => some '/'
  | '\\' => some '\\'
  | 'N' => some '\x85'
  | '_' => some '\xa0'
  | 'L' => some '\u2028'
  | 'P' => some '\u2029'
  | _ => none

/-- The number of digits after the letter of a numeric escape. -/
def escapeLength? : Char → Option Nat
  | 'x' => some 2
  | 'u' => some 4
  | 'U' => some 8
  | _ => none

/-- The character with a code point, unless there is none. -/
def charOf? (n : Nat) : Option Char :=
  if n.isValidChar then some (Char.ofNat n) else none

/-- Reads an escape after its backslash. -/
def readEscape (c : Cursor) : Except Fault (Char × Cursor) :=
  match c.peek with
  | none => .error .invalidEscape
  | some x =>
    match escaped? x, escapeLength? x with
    | some y, _ => .ok (y, c.skip 1)
    | none, some length =>
      let digits := (c.rest.drop 1).take length
      match (Text.natural? 16 digits).bind charOf? with
      | some y => if digits.length = length then .ok (y, c.skip (length + 1)) else .error .invalidEscape
      | none => .error .invalidEscape
    | none, none => .error .invalidEscape

/-- Reads the characters up to a gap or the closing quote, and after an escaped
line break begins the gap. -/
def readQuotedWord (single : Bool) : Nat → List Char → Cursor →
    Except Fault (List Char × Gap × Cursor)
  | 0, back, c => .ok (back, .start, c)
  | fuel + 1, back, c =>
    match c.peek with
    | none => .ok (back, .start, c)
    | some x =>
      if isGap x || isBreak x then .ok (back, .start, c)
      else if single then
        if x != '\'' then readQuotedWord single fuel (x :: back) (c.skip 1)
        else if c.ahead 1 == some '\'' then readQuotedWord single fuel ('\'' :: back) (c.skip 2)
        else .ok (back, .start, c)
      else if x == '"' then .ok (back, .start, c)
      else if x != '\\' then readQuotedWord single fuel (x :: back) (c.skip 1)
      else if (c.ahead 1).any isBreak then .ok (back, .afterEscape, (c.skip 1).skipBreak)
      else do
        let (y, c) ← readEscape (c.skip 1)
        readQuotedWord single fuel (y :: back) c

/-- Reads on to the closing quote; `back` holds what has been read, last first. -/
def readQuotedFrom (single : Bool) : Nat → List Char → Cursor → Except Fault (List Char × Cursor)
  | 0, _, _ => .error .openScalar
  | fuel + 1, back, c =>
    if c.standsDocumentMark then .error .markInScalar
    else if c.peek.isNone then .error .openScalar
    else do
      let (back, gap, c) ← readQuotedWord single c.rest.length back c
      if c.stands (if single then '\'' else '"') then return (back.reverse, c.skip 1)
      let (gap, c) ← gap.read 0 c.rest.length c
      readQuotedFrom single fuel (gap.chars.reverse ++ back) c

/-- Reads a scalar from its opening quote on. -/
def readQuoted (single : Bool) (c : Cursor) : Except Fault (String × Cursor) := do
  let (cs, c) ← readQuotedFrom single (c.rest.length + 1) [] (c.skip 1)
  return (String.ofList cs, c)

end AssessmentPlans.Yaml
