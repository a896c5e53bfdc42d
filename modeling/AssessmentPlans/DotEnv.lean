import AssessmentPlans.Text.Alphanumeric
import AssessmentPlans.Text.Pieces

/-! Files that set environment variables. A line sets one; quotes may carry it on
over several lines. -/
namespace AssessmentPlans.DotEnv

/-- The variables that are set, each once. -/
abbrev Variables := List (String × String)

/-- A line that sets no variable, although it should. -/
structure LineFault where
  line : String
  deriving DecidableEq

def LineFault.message (f : LineFault) : String := "Error parsing line: '" ++ f.line ++ "'"

/-! Lines. -/

/-- Where in a line its end is being looked for. -/
inductive Scan where
  | bare
  | space
  | escape
  | single
  | singleEscape
  | double
  | doubleEscape
  | comment
  deriving DecidableEq

/-- Outside quotes. -/
def Scan.enter (c : Char) : Scan :=
  if c = '\\' then .escape
  else if c = '"' then .double
  else if c = '\'' then .single
  else .bare

def Scan.step (c : Char) : Scan → Scan
  | .bare => if Text.isBlank c && c != '\n' && c != '\r' then .space else .enter c
  | .space => if c = '#' then .comment else .enter c
  | .escape => .bare
  | .single => if c = '\\' then .singleEscape else if c = '\'' then .bare else .single
  | .singleEscape => .single
  | .double => if c = '\\' then .doubleEscape else if c = '"' then .bare else .double
  | .doubleEscape => .double
  | .comment => .comment

/-- Scans a physical line up to a comment. The count is of bytes before it. -/
def Scan.through : Scan → Nat → List Char → Scan × Nat
  | s, n, [] => (s, n)
  | s, n, c :: cs =>
    match s.step c with
    | .comment => (.comment, n)
    | s => through s (n + c.utf8Size) cs

/-- The characters that fit into so many bytes. -/
def takeBytes : Nat → List Char → List Char
  | _, [] => []
  | n, c :: cs => if c.utf8Size ≤ n then c :: takeBytes (n - c.utf8Size) cs else []

/-- Cuts a text behind its first line break. -/
def cutLine (cs : List Char) : List Char × List Char :=
  let body := cs.takeWhile (· != '\n')
  let rest := cs.dropWhile (· != '\n')
  (body ++ rest.take 1, rest.drop 1)

/-- Drops the line break at the end. -/
def dropBreak (line : List Char) : List Char :=
  match line.reverse with
  | '\n' :: '\r' :: back => back.reverse
  | '\n' :: back => back.reverse
  | _ => line

/-- Whether a line is a comment as a whole. -/
def isComment (line : List Char) : Bool := (Text.trimLeft line).head? == some '#'

/-- The next logical line and what follows it. Lines are put together while a quote
is open. A comment is cut off, at the bytes that its own line has before it. -/
def nextLine : Nat → Scan → List Char → List Char → Except LineFault (List Char × List Char)
  | 0, _, line, _ => .error ⟨String.ofList line⟩
  | fuel + 1, scan, line, cs =>
    if cs.isEmpty then .error ⟨String.ofList line⟩
    else
      let (piece, rest) := cutLine cs
      let line := line ++ piece
      if isComment line then .ok ([], rest)
      else match scan.through 0 piece with
        | (.bare, _) => .ok (dropBreak line, rest)
        | (.comment, n) => .ok (takeBytes n line, rest)
        | (scan, _) => nextLine fuel scan line rest

/-! Values. -/

/-- What a value is made of while it is read: the text so far, last first. -/
inductive Mode where
  | bare
  | single
  | double
  | ended
  deriving DecidableEq

/-- A name whose value is to be put in, last letter first. -/
inductive Reference where
  | none
  | open (name : List Char)
  | braced (name : List Char)

/-- The letters and digits of names. -/
def isNameChar (c : Char) : Bool := Text.isAlphanumeric c

def lookup (vars : Variables) (name : List Char) : List Char :=
  ((vars.lookup (String.ofList name.reverse)).getD "").toList

def escaped? (c : Char) : Option Char :=
  if c = 'n' then some '\n'
  else if ['\\', '\'', '"', '$', ' '].contains c then some c
  else none

/-- Reads a value. Only blanks or a comment may follow a blank outside quotes. -/
def readValue (vars : Variables) : List Char → Mode → Reference → List Char → Option (List Char)
  | [], mode, reference, back =>
    match mode, reference with
    | .single, _ | .double, _ | _, .braced _ => none
    | _, .open name => some (back.reverse ++ lookup vars name)
    | _, .none => some back.reverse
  | c :: cs, .ended, _, back =>
    if c = ' ' || c = '\t' then readValue vars cs .ended .none back
    else if c = '#' then some back.reverse
    else none
  | c :: cs, .single, reference, back =>
    if c = '\'' then readValue vars cs .bare reference back
    else readValue vars cs .single reference (c :: back)
  | c :: cs, mode, .open name, back =>
    if isNameChar c then readValue vars cs mode (.open (c :: name)) back
    else if c = '\x7b' && name.isEmpty then readValue vars cs mode (.braced []) back
    else
      let back := (lookup vars name).reverse ++ back
      if c = '$' then readValue vars cs mode (.open []) back
      else readValue vars cs mode .none (c :: back)
  | c :: cs, mode, .braced name, back =>
    if c = '\x7d' then readValue vars cs mode .none ((lookup vars name).reverse ++ back)
    else readValue vars cs mode (.braced (c :: name)) back
  | ['\\'], mode, .none, back => if mode = .double then none else some back.reverse
  | '\\' :: c :: cs, mode, .none, back =>
    (escaped? c).bind fun x => readValue vars cs mode .none (x :: back)
  | c :: cs, mode, .none, back =>
    if c = '$' then readValue vars cs mode (.open []) back
    else if c = '"' then readValue vars cs (if mode = .double then .bare else .double) .none back
    else if mode = .double then readValue vars cs .double .none (c :: back)
    else if c = '\'' then readValue vars cs .single .none back
    else if c = ' ' || c = '\t' then readValue vars cs .ended .none back
    else readValue vars cs .bare .none (c :: back)

/-! Settings. -/

def beginsName (c : Char) : Bool := c.isAlpha || c == '_'

def isKeyChar (c : Char) : Bool := c.isAlphanum || c == '_' || c == '.'

/-- The name of a variable and what follows it, without space. -/
def readKey (cs : List Char) : Option (String × List Char) :=
  if cs.head?.any beginsName then
    some (String.ofList (cs.takeWhile isKeyChar), Text.trimLeft (cs.dropWhile isKeyChar))
  else none

/-- What stands behind an equals sign, without space. -/
def readEquals : List Char → Option (List Char)
  | '=' :: cs => some (Text.trimLeft cs)
  | _ => none

/-- The name that a line sets. A word of export before it does not count, unless it
is a name itself. -/
def readTarget (cs : List Char) : Option (String × List Char) := do
  let (key, rest) ← readKey cs
  match readEquals rest with
  | some value => return (key, value)
  | none =>
    if key = "export" then
      let (key, rest) ← readKey rest
      return (key, ← readEquals rest)
    else none

/-- What a logical line sets: nothing if it is empty. -/
def readSetting (vars : Variables) (line : List Char) : Except LineFault (Option (String × String)) :=
  let cs := Text.trimLeft (Text.trimRight line)
  if cs.isEmpty || isComment cs then .ok none
  else
    let setting := do
      let (key, value) ← readTarget cs
      if value.isEmpty || isComment value then return (key, "")
      else return (key, String.ofList (← readValue vars value .bare .none []))
    match setting with
    | some s => .ok (some s)
    | none => .error ⟨String.ofList line⟩

/-- A variable that is set keeps its value. -/
def Variables.add (key value : String) (vars : Variables) : Variables :=
  if (vars.lookup key).isSome then vars else vars ++ [(key, value)]

/-- Sets the variables of a text, up to the first fault. -/
def loadFrom : Nat → Variables → List Char → Variables × Option LineFault
  | 0, vars, _ => (vars, none)
  | fuel + 1, vars, cs =>
    if cs.isEmpty then (vars, none)
    else match nextLine (cs.length + 1) .bare [] cs with
      | .error fault => (vars, some fault)
      | .ok (line, rest) =>
        match readSetting vars line with
        | .error fault => (vars, some fault)
        | .ok none => loadFrom fuel vars rest
        | .ok (some (key, value)) => loadFrom fuel (Variables.add key value vars) rest

/-- Sets the variables of a text. A byte order mark at its beginning does not count. -/
def load (text : String) (vars : Variables) : Variables × Option LineFault :=
  let cs := match text.toList with
    | '\ufeff' :: cs => cs
    | cs => cs
  loadFrom (cs.length + 1) vars cs

end AssessmentPlans.DotEnv
