import AssessmentPlans.Yaml.Gap

/-! Plain scalars: those without any quotes. -/
namespace AssessmentPlans.Yaml

def isFlowMark (c : Char) : Bool := c == ',' || c == '[' || c == ']' || c == '\x7b' || c == '\x7d'

/-- The characters that begin something else. A dash, a question mark or a colon
may begin a plain scalar if the next character allows it. -/
def isIndicator (c : Char) : Bool :=
  isFlowMark c || "-?:#&*!|>'\"%@`".toList.contains c

/-- Whether a plain scalar begins here. -/
def Cursor.standsPlain (inFlow : Bool) (c : Cursor) : Bool :=
  match c.peek with
  | none => false
  | some x =>
    let next := c.ahead 1
    (!isGap x && !isBreak x && !isIndicator x) || (x == '-' && !next.any isGap) ||
      (!inFlow && (x == '?' || x == ':') && !endsWord next)

/-- Reads the characters up to the next gap or to the end of the scalar. The
answer tells whether the scalar ends. -/
def readPlainWord (inFlow : Bool) : Nat → List Char → Cursor →
    Except Fault (List Char × Bool × Cursor)
  | 0, back, c => .ok (back, true, c)
  | fuel + 1, back, c =>
    match c.peek with
    | none => .ok (back, true, c)
    | some x =>
      let next := c.ahead 1
      if isGap x || isBreak x then .ok (back, false, c)
      else if inFlow && x == ':' && next.any (fun y => isFlowMark y || y == '?') then
        .error .colonInFlow
      else if (x == ':' && endsWord next) || (inFlow && isFlowMark x) then .ok (back, true, c)
      else readPlainWord inFlow fuel (x :: back) (c.skip 1)

/-- Reads on from the last gap. The scalar ends before a document mark, before a
comment, and outside flow collections before a line that is not indented as far
as the margin. A gap at the end does not belong to it, but the answer tells
whether there was a line break in it. -/
def readPlainFrom (inFlow : Bool) (margin : Nat) : Nat → List Char → Gap → Cursor →
    Except Fault (List Char × Bool × Cursor)
  | 0, back, gap, c => .ok (back.reverse, gap.broken, c)
  | fuel + 1, back, gap, c =>
    if c.standsDocumentMark || c.stands '#' then .ok (back.reverse, gap.broken, c)
    else do
      let (word, ends, c) ← readPlainWord inFlow c.rest.length [] c
      let back := if word.isEmpty then back else word ++ (gap.chars.reverse ++ back)
      if ends then return (back.reverse, gap.broken && word.isEmpty, c)
      let (gap, c) ← Gap.start.read margin c.rest.length c
      if !inFlow && c.column < margin then return (back.reverse, gap.broken, c)
      readPlainFrom inFlow margin fuel back gap c

/-- Reads a plain scalar within a parent of the given indentation. The answer
tells whether a line ended after it. -/
def readPlain (inFlow : Bool) (parent : Int) (c : Cursor) : Except Fault (String × Bool × Cursor) := do
  let (cs, ended, c) ← readPlainFrom inFlow (parent + 1).toNat (c.rest.length + 1) [] .start c
  return (String.ofList cs, ended, c)

end AssessmentPlans.Yaml
