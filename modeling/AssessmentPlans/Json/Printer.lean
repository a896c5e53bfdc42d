import AssessmentPlans.Json.Draft

/-! Writing a JSON value: one item or member on a line, two spaces deeper than
the container that holds it. -/
namespace AssessmentPlans.Json

/-- Two digits of a control character's code point. -/
def hexPair (n : Nat) : List Char := [Nat.digitChar (n / 16), Nat.digitChar (n % 16)]

/-- Only quotes, backslashes and control characters are escaped. -/
def escapeChar (c : Char) : List Char :=
  if c = '"' then ['\\', '"']
  else if c = '\\' then ['\\', '\\']
  else if c = '\x08' then ['\\', 'b']
  else if c = '\x0c' then ['\\', 'f']
  else if c = '\n' then ['\\', 'n']
  else if c = '\r' then ['\\', 'r']
  else if c = '\t' then ['\\', 't']
  else if c.toNat < 0x20 then ['\\', 'u', '0', '0'] ++ hexPair c.toNat
  else [c]

def textChars (s : String) : List Char := '"' :: (s.toList.flatMap escapeChar ++ ['"'])

/-- Begins a line at the given depth. -/
def newline (depth : Nat) : List Char := '\n' :: List.replicate (2 * depth) ' '

namespace Value

mutual

/-- The text of a value that begins at the given depth. -/
def chars (depth : Nat) : Value → List Char
  | .null => ['n', 'u', 'l', 'l']
  | .boolean true => ['t', 'r', 'u', 'e']
  | .boolean false => ['f', 'a', 'l', 's', 'e']
  | .number n => n.chars false
  | .text s => textChars s
  | .array [] => ['[', ']']
  | .array (v :: vs) =>
    '[' :: (newline (depth + 1) ++ (chars (depth + 1) v ++
      (moreItems (depth + 1) vs ++ (newline depth ++ [']']))))
  | .object [] => ['\x7b', '\x7d']
  | .object ((key, v) :: ms) =>
    '\x7b' :: (newline (depth + 1) ++ (textChars key ++ (':' :: ' ' :: (chars (depth + 1) v ++
      (moreMembers (depth + 1) ms ++ (newline depth ++ ['\x7d']))))))

def moreItems (depth : Nat) : List Value → List Char
  | [] => []
  | v :: vs => ',' :: (newline depth ++ (chars depth v ++ moreItems depth vs))

def moreMembers (depth : Nat) : List (String × Value) → List Char
  | [] => []
  | (key, v) :: ms =>
    ',' :: (newline depth ++ (textChars key ++ (':' :: ' ' :: (chars depth v ++
      moreMembers depth ms))))

end

def pretty (v : Value) : String := String.ofList (chars 0 v)

end Value
end AssessmentPlans.Json
