import AssessmentPlans.Text.Characters
import AssessmentPlans.Yaml.Cursor
import AssessmentPlans.Yaml.Fault
import AssessmentPlans.Yaml.Token

/-! What may stand before a node: a tag, and an anchor to refer to it. -/
namespace AssessmentPlans.Yaml

/-- What may stand behind the name of an anchor or alias, other than space. -/
def endsName (next : Option Char) : Bool :=
  endsWord next || next.any ("?:,]\x7d%@`".toList.contains ·)

/-- The name of an anchor or alias, after its indicator. -/
def readName (c : Cursor) : Except Fault (String × Cursor) :=
  let (name, c) := (c.skip 1).span isWordChar
  if name.isEmpty || !endsName c.peek then .error .brokenName else .ok (String.ofList name, c)

/-- The characters of a tag. Brackets and commas are among them only where a
flow collection cannot go on. -/
def isTagChar (alone : Bool) (c : Char) : Bool :=
  isWordChar c || ";/?:@&=+$.%!~*'()".toList.contains c || (alone && (c == ',' || c == '[' || c == ']'))

/-- The value of the two hexadecimal digits after a percent sign. -/
def percentByte? (cs : List Char) : Option Nat :=
  match cs with
  | '%' :: a :: b :: _ => Text.natural? 16 [a, b]
  | _ => none

/-- The number of bytes after the first byte of a character, and the bits that
the first one contributes. -/
def leadByte? (b : Nat) : Option (Nat × Nat) :=
  if b < 0x80 then some (0, b)
  else if 0xC0 ≤ b && b < 0xE0 then some (1, b - 0xC0)
  else if 0xE0 ≤ b && b < 0xF0 then some (2, b - 0xE0)
  else if 0xF0 ≤ b && b < 0xF8 then some (3, b - 0xF0)
  else none

/-- The bits of further bytes, each behind a percent sign. -/
def trailBytes? : Nat → Nat → List Char → Option Nat
  | 0, bits, _ => some bits
  | n + 1, bits, cs =>
    (percentByte? cs).bind fun b =>
      if 0x80 ≤ b && b < 0xC0 then trailBytes? n (64 * bits + (b - 0x80)) (cs.drop 3) else none

/-- The character whose bytes stand here, and how many characters they take. -/
def percentChar? (cs : List Char) : Option (Char × Nat) := do
  let (more, bits) ← leadByte? (← percentByte? cs)
  let n ← trailBytes? more bits (cs.drop 3)
  return (Char.ofNat n, 3 * (more + 1))

/-- Reads the characters of a tag. -/
def readTagChars (alone : Bool) : Nat → List Char → Cursor → Except Fault (List Char × Cursor)
  | 0, back, c => .ok (back.reverse, c)
  | fuel + 1, back, c =>
    match c.peek with
    | none => .ok (back.reverse, c)
    | some x =>
      if !isTagChar alone x then .ok (back.reverse, c)
      else if x != '%' then readTagChars alone fuel (x :: back) (c.skip 1)
      else match percentChar? c.rest with
        | some (y, length) => readTagChars alone fuel (y :: back) (c.skip length)
        | none => .error .brokenTag

def readTagText (alone : Bool) (c : Cursor) : Except Fault (List Char × Cursor) :=
  readTagChars alone c.rest.length [] c

/-- A handle: an exclamation mark, and perhaps a name and another such mark. -/
def readHandle (c : Cursor) : Except Fault (List Char × Cursor) :=
  if !c.stands '!' then .error .brokenTag
  else
    let (name, c) := (c.skip 1).span isWordChar
    if c.stands '!' then .ok ('!' :: (name ++ ['!']), c.skip 1) else .ok ('!' :: name, c)

/-- A tag without its handle: all of it between angle brackets, or a suffix. The
text after a single exclamation mark is a suffix, and without any the mark is the
whole tag. -/
def readTagParts (c : Cursor) : Except Fault (Token × Cursor) := do
  if c.ahead 1 == some '<' then
    let (tag, c) ← readTagText true (c.skip 2)
    if tag.isEmpty || !c.stands '>' then throw .brokenTag
    return (.tag "" (String.ofList tag), c.skip 1)
  let (handle, c) ← readHandle c
  let (suffix, c) ← readTagText false c
  if handle.length ≥ 2 && handle.getLast? == some '!' then
    if suffix.isEmpty then throw .brokenTag
    return (.tag (String.ofList handle) (String.ofList suffix), c)
  else if handle.length == 1 && suffix.isEmpty then return (.tag "" "!", c)
  else return (.tag "!" (String.ofList (handle.drop 1 ++ suffix)), c)

/-- Reads a tag from its indicator on. -/
def readTag (inFlow : Bool) (c : Cursor) : Except Fault (Token × Cursor) := do
  let (tag, c) ← readTagParts c
  if endsWord c.peek || (inFlow && c.stands ',') then return (tag, c) else throw .brokenTag

end AssessmentPlans.Yaml
