/-! A place in a YAML text, and the characters that matter there. -/
namespace AssessmentPlans.Yaml

def isGap (c : Char) : Bool := c == ' ' || c == '\t'

def isBreak (c : Char) : Bool :=
  c == '\n' || c == '\r' || c == '\x85' || c == '\u2028' || c == '\u2029'

/-- Spaces, tabs, line breaks and the end of the text. -/
def endsWord : Option Char → Bool
  | some c => isGap c || isBreak c
  | none => true

/-- Line breaks and the end of the text. -/
def endsLine : Option Char → Bool
  | some c => isBreak c
  | none => true

/-- The characters of anchors, handles and directive names. -/
def isWordChar (c : Char) : Bool := c.isAlphanum || c == '_' || c == '-'

/-- What remains of the text, and where it begins. -/
structure Cursor where
  rest : List Char
  index : Nat
  line : Nat
  column : Nat

namespace Cursor

def ofChars (cs : List Char) : Cursor := ⟨cs, 0, 0, 0⟩

def peek (c : Cursor) : Option Char := c.rest.head?

/-- The character `n` places ahead. -/
def ahead (n : Nat) (c : Cursor) : Option Char := c.rest[n]?

def stands (x : Char) (c : Cursor) : Bool := c.peek == some x

def standsBreak (c : Cursor) : Bool := c.peek.any isBreak

def standsGap (c : Cursor) : Bool := c.peek.any isGap

/-- Passes over `n` characters of the line. -/
def skip (n : Nat) (c : Cursor) : Cursor :=
  { c with rest := c.rest.drop n, index := c.index + n, column := c.column + n }

/-- The characters of the line while a condition holds, and the place after them. -/
def span (p : Char → Bool) (c : Cursor) : List Char × Cursor :=
  let taken := c.rest.takeWhile p
  (taken, c.skip taken.length)

def skipWhile (p : Char → Bool) (c : Cursor) : Cursor := (c.span p).2

/-- Passes over a line break, if one stands here: the break as it counts in a
scalar, and the place after it. -/
def readBreak (c : Cursor) : List Char × Cursor :=
  let after (rest : List Char) (n : Nat) : Cursor := ⟨rest, c.index + n, c.line + 1, 0⟩
  match c.rest with
  | '\r' :: '\n' :: rest => (['\n'], after rest 2)
  | x :: rest =>
    if x == '\n' || x == '\r' || x == '\x85' then (['\n'], after rest 1)
    else if isBreak x then ([x], after rest 1)
    else ([], c)
  | [] => ([], c)

def skipBreak (c : Cursor) : Cursor := c.readBreak.2

/-- Passes over a comment, up to the end of its line. -/
def skipComment (c : Cursor) : Cursor :=
  if c.stands '#' then c.skipWhile (!isBreak ·) else c

/-- Whether a line begins here with that mark, three times, as a word. -/
def standsMark (mark : Char) (c : Cursor) : Bool :=
  c.column == 0 && c.rest.take 3 == [mark, mark, mark] && endsWord (c.ahead 3)

/-- Whether a document begins or ends here. -/
def standsDocumentMark (c : Cursor) : Bool := c.standsMark '-' || c.standsMark '.'

end Cursor
end AssessmentPlans.Yaml
