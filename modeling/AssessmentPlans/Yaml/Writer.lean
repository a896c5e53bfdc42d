import AssessmentPlans.Yaml.Cursor
import AssessmentPlans.Yaml.Meaning

/-! Writing a text as a scalar of a block, so that it reads back as a text: plain
where that is safe, else as a block of lines or between quotes. -/
namespace AssessmentPlans.Yaml

/-- Whether a character stands for itself outside double quotes. -/
def isVisible (c : Char) : Bool :=
  let n := c.toNat
  n == 0x0A || (0x20 ≤ n && n ≤ 0x7E) || (0xA0 ≤ n && n ≤ 0xD7FF) ||
    (0xE000 ≤ n && n ≤ 0xFFFD && n != 0xFEFF) || 0x10000 ≤ n

/-- Whether some character is followed by one of another kind. -/
def followed (p q : Char → Bool) : List Char → Bool
  | c :: d :: cs => (p c && q d) || followed p q (d :: cs)
  | _ => false

/-- Whether a plain scalar may begin with these characters in a block. -/
def beginsPlain (cs : List Char) : Bool :=
  match cs with
  | [] => true
  | c :: rest =>
    !(cs.take 3 == ['-', '-', '-'] || cs.take 3 == ['.', '.', '.']) &&
    !("#,[]\x7b\x7d&*!|>'\"%@`".toList.contains c) &&
    !((c == '?' || c == ':' || c == '-') && endsWord rest.head?)

/-- Whether a colon ends a word, or a number sign begins one. -/
def breaksPlain (cs : List Char) : Bool :=
  followed (· == ':') (fun c => isGap c || isBreak c) cs ||
  (cs.length > 1 && cs.getLast? == some ':') ||
  followed (fun c => isGap c || isBreak c) (· == '#') cs

def isEdge (p : Char → Bool) (cs : List Char) : Bool := cs.head?.any p || cs.getLast?.any p

/-- Whether the text can only be written between double quotes. -/
def needsEscapes (cs : List Char) : Bool :=
  followed (· == ' ') isBreak cs || !cs.all isVisible

/-- Whether the text may be written plain in a block. -/
def suitsPlain (cs : List Char) : Bool :=
  beginsPlain cs && !breaksPlain cs && !isEdge (fun c => c == ' ' || isBreak c) cs &&
    !cs.any isBreak && !needsEscapes cs

def suitsSingle (cs : List Char) : Bool := !followed isBreak (· == ' ') cs && !needsEscapes cs

def suitsLiteral (cs : List Char) : Bool := cs.getLast? != some ' ' && !needsEscapes cs

/-- A plain scalar with this text would mean something else, or might be taken
for a number. -/
def isAmbiguous (s : String) : Bool :=
  Meaning.ofPlain s != .text s || isPadded s.toList

/-- The style in which a text is written. -/
def styleFor (s : String) : ScalarStyle :=
  let cs := s.toList
  if cs.contains '\n' then if suitsLiteral cs then .literal else .double
  else if !isAmbiguous s && suitsPlain cs then .plain
  else if suitsSingle cs then .single
  else .double

/-- Hexadecimal digits in upper case, as many as asked for. -/
def paddedHex (width n : Nat) : List Char :=
  let digits := (Nat.toDigits 16 n).map Char.toUpper
  List.replicate (width - digits.length) '0' ++ digits

def escapeChar (c : Char) : List Char :=
  let n := c.toNat
  if c == '\x00' then ['\\', '0']
  else if c == '\x07' then ['\\', 'a']
  else if c == '\x08' then ['\\', 'b']
  else if c == '\t' then ['\\', 't']
  else if c == '\n' then ['\\', 'n']
  else if c == '\x0b' then ['\\', 'v']
  else if c == '\x0c' then ['\\', 'f']
  else if c == '\r' then ['\\', 'r']
  else if c == '\x1b' then ['\\', 'e']
  else if c == '"' || c == '\\' then ['\\', c]
  else if c == '\x85' then ['\\', 'N']
  else if c == '\u2028' then ['\\', 'L']
  else if c == '\u2029' then ['\\', 'P']
  else if isVisible c then [c]
  else if n ≤ 0xFF then '\\' :: 'x' :: paddedHex 2 n
  else if n ≤ 0xFFFF then '\\' :: 'u' :: paddedHex 4 n
  else '\\' :: 'U' :: paddedHex 8 n

def doubleChars (cs : List Char) : List Char := '"' :: cs.flatMap escapeChar ++ ['"']

/-- Continuation lines of a scalar are indented by two spaces. -/
def indentChars : List Char := [' ', ' ']

/-- The characters between single quotes. After a break the next line is
indented; an empty line is not. -/
def singleRest (broken : Bool) : List Char → List Char
  | [] => if broken then indentChars else []
  | c :: cs =>
    if isBreak c then c :: singleRest true cs
    else (if broken then indentChars else []) ++
      (if c == '\'' then ['\'', '\''] else [c]) ++ singleRest false cs

def singleChars (cs : List Char) : List Char := '\'' :: singleRest false cs ++ ['\'']

/-- The lines of a block, each indented unless it is empty. -/
def literalRest (broken : Bool) : List Char → List Char
  | [] => []
  | c :: cs =>
    if isBreak c then c :: literalRest true cs
    else (if broken then indentChars else []) ++ c :: literalRest false cs

/-- The indentation is given where the first line does not show it; the chomping
tells how many line breaks end the text. -/
def literalHeader (cs : List Char) : List Char :=
  let indentation := if cs.head?.any (fun c => c == ' ' || isBreak c) then ['2'] else []
  let chomping := match cs.reverse with
    | [] => ['-']
    | [c] => if isBreak c then ['+'] else ['-']
    | c :: d :: _ => if !isBreak c then ['-'] else if isBreak d then ['+'] else []
  '|' :: indentation ++ chomping

/-- A scalar, up to the end of its last line. -/
def scalarChars (s : String) : List Char :=
  let cs := s.toList
  match styleFor s with
  | .plain => cs ++ ['\n']
  | .single => singleChars cs ++ ['\n']
  | .literal | .folded =>
    literalHeader cs ++ '\n' :: literalRest true cs ++
      (if cs.getLast?.any isBreak then [] else ['\n'])
  | .double => doubleChars cs ++ ['\n']

end AssessmentPlans.Yaml
