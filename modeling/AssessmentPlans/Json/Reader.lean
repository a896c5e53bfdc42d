import AssessmentPlans.Json.Numeral
import AssessmentPlans.Text.Characters

/-! Reading a JSON text into a draft. -/
namespace AssessmentPlans.Json

def isSpace (c : Char) : Bool := c == ' ' || c == '\n' || c == '\t' || c == '\r'

def skipSpace (cs : List Char) : List Char := cs.dropWhile isSpace

/-- The rest of a word whose first letter has been read. -/
def readWord : List Char → List Char → Except Fault (List Char)
  | [], cs => .ok cs
  | _ :: _, [] => .error .endInValue
  | w :: ws, c :: cs => if c = w then readWord ws cs else .error .expectedWord

/-- The number of four hexadecimal digits. -/
def hex4? (a b c d : Char) : Option Nat := Text.natural? 16 [a, b, c, d]

def isHighSurrogate (n : Nat) : Bool := 0xD800 ≤ n && n ≤ 0xDBFF

def isLowSurrogate (n : Nat) : Bool := 0xDC00 ≤ n && n ≤ 0xDFFF

def joinSurrogates (high low : Nat) : Char :=
  Char.ofNat (0x10000 + (high - 0xD800) * 0x400 + (low - 0xDC00))

/-- The character of an escape with one letter. -/
def escaped? : Char → Option Char
  | '"' => some '"'
  | '\\' => some '\\'
  | '/' => some '/'
  | 'b' => some '\x08'
  | 'f' => some '\x0c'
  | 'n' => some '\n'
  | 'r' => some '\r'
  | 't' => some '\t'
  | _ => none

/-- A quoted text falls into characters and the code units of its escapes. -/
inductive Piece where
  | char (c : Char)
  | unit (n : Nat)

/-- The pieces up to the closing quote, and what follows it. A character at fault
is still a piece, since it tells a high surrogate that no low one follows. -/
def readPieces : List Char → List Piece × Except Fault (List Char)
  | [] => ([], .error .endInText)
  | '"' :: rest => ([], .ok rest)
  | '\\' :: 'u' :: a :: b :: c :: d :: rest =>
    match hex4? a b c d with
    | some n => let (ps, after) := readPieces rest; (.unit n :: ps, after)
    | none => ([], .error .invalidEscape)
  | '\\' :: 'u' :: rest =>
    ([], .error (if (String.ofList rest).utf8ByteSize < 4 then .endInText else .invalidEscape))
  | ['\\'] => ([], .error .endInText)
  | '\\' :: c :: rest =>
    match escaped? c with
    | some c => let (ps, after) := readPieces rest; (.char c :: ps, after)
    | none => ([.char c], .error .invalidEscape)
  | c :: rest =>
    if c.toNat < 0x20 then ([.char c], .error .controlCharacter)
    else let (ps, after) := readPieces rest; (.char c :: ps, after)

/-- The characters of the pieces. A low surrogate must follow a high one, which
cannot be missed before the text is closed. -/
def joinPieces (closed : Bool) : List Piece → Except Fault (List Char)
  | [] => .ok []
  | .char c :: ps => (joinPieces closed ps).map (c :: ·)
  | .unit n :: ps =>
    if isLowSurrogate n then .error .loneSurrogate
    else if isHighSurrogate n then
      match ps with
      | .unit m :: ps =>
        if isLowSurrogate m then (joinPieces closed ps).map (joinSurrogates n m :: ·)
        else .error .loneSurrogate
      | .char _ :: _ => .error .endInEscape
      | [] => if closed then .error .endInEscape else .ok []
    else (joinPieces closed ps).map (Char.ofNat n :: ·)

/-- Reads a text after its opening quote, up to and with the closing one. -/
def readText (cs : List Char) : Except Stop (Except Fault String × List Char) :=
  match readPieces cs with
  | (ps, .ok rest) => .ok ((joinPieces true ps).map String.ofList, rest)
  | (ps, .error fault) =>
    match joinPieces false ps with
    | .ok _ => .error (.hard fault)
    | .error earlier => .error ⟨earlier, fault, .trailingCharacters⟩

/-- What a text begins with, and what follows it. -/
abbrev DraftResult := Draft × List Char

def DraftResult.stopped (fault : Fault) : DraftResult := (.broken (.hard fault), [])

def readWordAs (d : Draft) (letters : List Char) (cs : List Char) : DraftResult :=
  match readWord letters cs with
  | .ok rest => (d, rest)
  | .error fault => .stopped fault

def readNumeral (negative : Bool) (cs : List Char) : DraftResult :=
  match Numeral.read negative cs with
  | .ok (n, rest) => (.numeral n.number?, rest)
  | .error stop => (.broken stop, [])

mutual

/-- The draft of the value that stands next. The fuel is spent one unit for each
value, item and member, so it lasts when it exceeds twice the text's length. -/
def readDraft : Nat → List Char → DraftResult
  | 0, _ => .stopped .expectedValue
  | fuel + 1, cs =>
    match skipSpace cs with
    | [] => .stopped .endInValue
    | c :: rest =>
      if c = 'n' then readWordAs .null ['u', 'l', 'l'] rest
      else if c = 't' then readWordAs (.boolean true) ['r', 'u', 'e'] rest
      else if c = 'f' then readWordAs (.boolean false) ['a', 'l', 's', 'e'] rest
      else if c = '-' then readNumeral true rest
      else if Numeral.isDigit c then readNumeral false (c :: rest)
      else if c = '"' then
        match readText rest with
        | .ok (text, rest) => (.text text, rest)
        | .error stop => (.broken stop, [])
      else if c = '[' then
        let (items, close, rest) := readItems fuel true rest
        (.array items close .trailingCharacters, rest)
      else if c = '\x7b' then
        let (members, close, rest) := readMembers fuel true rest
        (.object members close, rest)
      else .stopped .expectedValue

/-- The items of an array from the place of the next one on. -/
def readItems : Nat → Bool → List Char → List Draft × Option Stop × List Char
  | 0, _, _ => ([], some (.hard .endInList), [])
  | fuel + 1, first, cs =>
    let item (cs : List Char) :=
      let (d, rest) := readDraft fuel cs
      let (ds, close, rest) := readItems fuel false rest
      (d :: ds, close, rest)
    match skipSpace cs with
    | [] => ([], some (.hard .endInList), [])
    | c :: rest =>
      if c = ']' then ([], none, rest)
      else if c = ',' then
        let closes := (skipSpace rest).head? = some ']'
        if first then
          ([], some ⟨.expectedValue, .expectedValue,
            if closes then .trailingComma else .trailingCharacters⟩, [])
        else if closes then ([], some ⟨.trailingComma, .expectedValue, .trailingComma⟩, [])
        else if (skipSpace rest).isEmpty then ([], some (.hard .endInValue), [])
        else item rest
      else if first then item (c :: rest)
      else ([], some (.hard .expectedListEnd), [])

/-- The members of an object from the place of the next one on. -/
def readMembers : Nat → Bool → List Char →
    List (Except Fault String × Draft) × Option Stop × List Char
  | 0, _, _ => ([], some (.hard .endInObject), [])
  | fuel + 1, first, cs =>
    let member (cs : List Char) :=
      match readText cs with
      | .error stop => ([], some stop, [])
      | .ok (key, rest) =>
        match skipSpace rest with
        | [] => ([(key, .broken (.hard .endInObject))], none, [])
        | c :: rest =>
          if c = ':' then
            let (d, rest) := readDraft fuel rest
            let (ms, close, rest) := readMembers fuel false rest
            ((key, d) :: ms, close, rest)
          else ([(key, .broken (.hard .expectedColon))], none, [])
    match skipSpace cs with
    | [] => ([], some (.hard .endInObject), [])
    | c :: rest =>
      if c = '\x7d' then ([], none, rest)
      else if c = ',' && !first then
        match skipSpace rest with
        | [] => ([], some ⟨.endInValue, .endInObject, .trailingCharacters⟩, [])
        | c :: rest =>
          if c = '"' then member rest
          else if c = '\x7d' then
            ([], some ⟨.trailingComma, .keyNotText, .trailingCharacters⟩, [])
          else ([], some (.hard .keyNotText), [])
      else if !first then ([], some (.hard .expectedObjectEnd), [])
      else if c = '"' then member rest
      else ([], some (.hard .keyNotText), [])

end

/-- A whole text: one draft, and whether anything but space follows it. -/
structure Source where
  draft : Draft
  surplus : Bool

def Source.ofText (s : String) : Source :=
  let cs := Text.characters s
  let (d, rest) := readDraft (2 * cs.length + 2) cs
  ⟨d, !(skipSpace rest).isEmpty⟩

/-- The number of containers that a text may open inside each other. -/
def depthLimit : Nat := 127

/-- Reads a whole text by a reader of drafts. -/
def Source.read {α} (source : Source) (reader : Draft → Except Fault α) : Except Fault α := do
  let a ← reader source.draft
  if source.surplus then .error .trailingCharacters else return a

/-- The value that a JSON text stands for. -/
def parse (s : String) : Except Fault Value := (Source.ofText s).read (Draft.value depthLimit)

end AssessmentPlans.Json
