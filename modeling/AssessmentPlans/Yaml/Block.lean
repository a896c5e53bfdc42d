import AssessmentPlans.Text.Characters
import AssessmentPlans.Yaml.Cursor
import AssessmentPlans.Yaml.Fault

/-! Scalars written as a block of lines, literal or folded. -/
namespace AssessmentPlans.Yaml

/-- What becomes of the line breaks at the end of a block. -/
inductive Chomping where
  | strip
  | clip
  | keep
  deriving DecidableEq

/-- The header of a block: the chomping, and the indentation beyond the parent's
if it is given. -/
structure BlockHeader where
  chomping : Chomping
  indentation : Option Nat

namespace BlockHeader

def readChomping (c : Cursor) : Option Chomping × Cursor :=
  if c.stands '+' then (some .keep, c.skip 1)
  else if c.stands '-' then (some .strip, c.skip 1)
  else (none, c)

/-- One digit other than zero. -/
def readIndentation (c : Cursor) : Except Fault (Option Nat × Cursor) :=
  match c.peek.bind (Text.digit? 10) with
  | none => .ok (none, c)
  | some 0 => .error .brokenBlockHeader
  | some n => .ok (some n, c.skip 1)

/-- Reads the two indicators in either order, and the rest of the line. -/
def read (c : Cursor) : Except Fault (BlockHeader × Cursor) := do
  let (before, c) := readChomping c
  let (indentation, c) ← readIndentation c
  let (after, c) := if before.isNone && indentation.isSome then readChomping c else (none, c)
  let c := (c.skipWhile isGap).skipComment
  if !endsLine c.peek then throw .brokenBlockHeader
  return (⟨(before.or after).getD .clip, indentation⟩, c.skipBreak)

end BlockHeader

/-- Reads the empty lines before the next line of a block of the given
indentation, or of any if that is zero: their line breaks, and the widest of
their indentations. -/
def readEmptyLines (indent : Nat) : Nat → Nat → List Char → Cursor →
    Except Fault (List Char × Nat × Cursor)
  | 0, widest, breaks, c => .ok (breaks, widest, c)
  | fuel + 1, widest, breaks, c =>
    let before (c : Cursor) := indent == 0 || c.column < indent
    let spaces := (c.rest.takeWhile (· == ' ')).length
    let c := c.skip (if indent == 0 then spaces else min spaces (indent - c.column))
    let widest := max widest c.column
    if before c && c.stands '\t' then .error .tabInIndentation
    else if c.standsBreak then
      let (b, c) := c.readBreak
      readEmptyLines indent fuel widest (breaks ++ b) c
    else .ok (breaks, widest, c)

/-- The line breaks between two lines of a block. Folding turns a single one
into a space, unless one of the lines is indented further. -/
def joint (literal : Bool) (ended : List Char) (empty : List Char) (more : Bool) : List Char :=
  if !literal && ended == ['\n'] && !more then if empty.isEmpty then [' '] else empty
  else ended ++ empty

/-- Reads the lines of a block. `ended` is the break after the last line, `empty`
those of the empty lines since, and `more` tells whether that line was indented
further; `back` holds what has been read, last first. -/
def readLines (literal : Bool) (chomping : Chomping) (indent : Nat) : Nat → List Char →
    List Char → List Char → Bool → Cursor → Except Fault (List Char × Cursor)
  | 0, back, _, _, _, c => .ok (back.reverse, c)
  | fuel + 1, back, ended, empty, more, c =>
    if c.column == indent && c.peek.isSome then do
      let further := c.standsGap
      let (line, c) := c.span (!isBreak ·)
      let back := line.reverse ++ ((joint literal ended empty (more || further)).reverse ++ back)
      let (ended, c) := c.readBreak
      let (empty, _, c) ← readEmptyLines indent (c.rest.length + 1) 0 [] c
      readLines literal chomping indent fuel back ended empty further c
    else
      let tail := match chomping with
        | .strip => []
        | .clip => ended
        | .keep => ended ++ empty
      .ok (back.reverse ++ tail, c)

/-- Reads a block from its indicator on, within a parent of the given
indentation; that is negative outside all blocks. -/
def readBlock (literal : Bool) (parent : Int) (c : Cursor) : Except Fault (String × Cursor) := do
  let (header, c) ← BlockHeader.read (c.skip 1)
  let fixed := (header.indentation.map fun n => (max parent 0).toNat + n).getD 0
  let (empty, widest, c) ← readEmptyLines fixed (c.rest.length + 1) 0 [] c
  let indent := if fixed == 0 then max (max widest (parent + 1).toNat) 1 else fixed
  let (cs, c) ← readLines literal header.chomping indent (c.rest.length + 1) [] [] empty false c
  return (String.ofList cs, c)

end AssessmentPlans.Yaml
