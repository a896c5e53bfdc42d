import AssessmentPlans.Yaml.Cursor
import AssessmentPlans.Yaml.Fault

/-! Gaps: the spaces and line breaks between the words of a scalar. -/
namespace AssessmentPlans.Yaml

/-- A gap within a line keeps its spaces. One that ends the line has lost them,
and the first break is told apart from the later ones. -/
structure Gap where
  spaces : List Char
  broken : Bool
  first : List Char
  later : List Char

namespace Gap

def start : Gap := ⟨[], false, [], []⟩

/-- What follows a line break that does not count. -/
def afterEscape : Gap := ⟨[], true, [], []⟩

/-- What the gap means. A single line break is folded into a space. -/
def chars (g : Gap) : List Char :=
  if !g.broken then g.spaces
  else if g.first == ['\n'] then if g.later.isEmpty then [' '] else g.later
  else g.first ++ g.later

/-- Adds a line break. -/
def addBreak (g : Gap) (b : List Char) : Gap :=
  if g.broken then { g with later := g.later ++ b } else ⟨[], true, b, []⟩

/-- Reads on to the next word. A tab must not stand before the column `margin`
of a further line. -/
def read (margin : Nat) : Nat → Gap → Cursor → Except Fault (Gap × Cursor)
  | 0, g, c => .ok (g, c)
  | fuel + 1, g, c =>
    match c.peek with
    | none => .ok (g, c)
    | some x =>
      if isGap x then
        if !g.broken then read margin fuel { g with spaces := g.spaces ++ [x] } (c.skip 1)
        else if x == '\t' && c.column < margin then .error .tabInIndentation
        else read margin fuel g (c.skip 1)
      else if isBreak x then
        let (b, c) := c.readBreak
        read margin fuel (g.addBreak b) c
      else .ok (g, c)

end Gap
end AssessmentPlans.Yaml
