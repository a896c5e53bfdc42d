import AssessmentPlans.Instant.Basic
import AssessmentPlans.Instant.Calendar
import AssessmentPlans.Text.Pieces
import AssessmentPlans.Text.Characters

/-! The written form of instants, by RFC 3339. Reading also takes spaces around the
separators, years of any length after a sign, and a leap second anywhere. -/
namespace AssessmentPlans.Instant
open Calendar (Date)

/-- Why a text is no instant. -/
inductive FormatFault where
  | tooShort
  | invalid
  | outOfRange
  | tooLong
  | impossible
  deriving DecidableEq

def FormatFault.message : FormatFault → String
  | .tooShort => "premature end of input"
  | .invalid => "input contains invalid characters"
  | .outOfRange => "input is out of range"
  | .tooLong => "trailing input"
  | .impossible => "no possible date and time matching format"

/-! Writing. -/

/-- Decimal digits, with zeros in front up to the given width. -/
def padded (width n : Nat) : List Char :=
  let digits := Nat.toDigits 10 n
  List.replicate (width - digits.length) '0' ++ digits

/-- Years of four digits have no sign, all others have one. -/
def yearChars (y : Int) : List Char :=
  if 0 ≤ y && y ≤ 9999 then padded 4 y.toNat
  else (if y < 0 then '-' else '+') :: padded 4 y.natAbs

def dateChars (d : Date) : List Char :=
  yearChars d.year ++ '-' :: padded 2 d.month ++ '-' :: padded 2 d.day

/-- The time of day without any fraction. -/
def timeChars (t : Instant) : List Char :=
  let second := t.second % 60 + if t.isLeap then 1 else 0
  padded 2 (t.second / 3600) ++ ':' :: padded 2 (t.second / 60 % 60) ++ ':' :: padded 2 second

/-- The fraction in thousandths, millionths or billionths, as it needs. -/
def fractionChars (t : Instant) : List Char :=
  let n := t.nano % nanosPerSecond
  if n = 0 then []
  else if n % 1000000 = 0 then '.' :: padded 3 (n / 1000000)
  else if n % 1000 = 0 then '.' :: padded 6 (n / 1000)
  else '.' :: padded 9 n

def textWith (fraction zone : List Char) (t : Instant) : String :=
  String.ofList (dateChars (Date.ofDays t.day) ++ 'T' :: timeChars t ++ fraction ++ zone)

/-- The written form, with the letter for the zone. -/
def text (t : Instant) : String := t.textWith t.fractionChars ['Z']

/-- The form for messages, with the offset of the zone. -/
def shown (t : Instant) : String := t.textWith t.fractionChars "+00:00".toList

/-- The form for documents, in whole seconds. -/
def stamp (t : Instant) : String := t.textWith [] ['Z']

/-! Reading. -/

abbrev Result := Except FormatFault

/-- The widest number of 64 bits with a sign. -/
def numberLimit : Nat := Nat.pow 2 63

/-- A number of at most `width` digits, or of any width. It has one at least. -/
def readNumber (width : Option Nat) (cs : List Char) : Result (Nat × List Char) :=
  let all := cs.takeWhile Text.isDigit
  let digits := match width with
    | some w => all.take w
    | none => all
  match Text.natural? 10 digits with
  | some n => if n < numberLimit then .ok (n, cs.drop digits.length) else .error .outOfRange
  | none => .error (if cs.isEmpty then .tooShort else .invalid)

/-- A number of at most two digits within bounds, after space. -/
def readField (low high : Nat) (cs : List Char) : Result (Nat × List Char) := do
  let (n, cs) ← readNumber (some 2) (Text.trimLeft cs)
  if low ≤ n && n ≤ high then return (n, cs) else throw .outOfRange

/-- A year of 32 bits. Without a sign it has at most four digits. -/
def readYear (cs : List Char) : Result (Int × List Char) := do
  let (y, cs) ← match Text.trimLeft cs with
    | '-' :: cs => (fun (n, cs) => (-(n : Int), cs)) <$> readNumber none cs
    | '+' :: cs => (fun (n, cs) => ((n : Int), cs)) <$> readNumber none cs
    | cs => (fun (n, cs) => ((n : Int), cs)) <$> readNumber (some 4) cs
  if -(Nat.pow 2 31 : Int) ≤ y && y < (Nat.pow 2 31 : Int) then return (y, cs) else throw .outOfRange

/-- A separator, after space. -/
def readMark (mark : Char) (cs : List Char) : Result (List Char) :=
  match Text.trimLeft cs with
  | [] => .error .tooShort
  | c :: cs => if c = mark then .ok cs else .error .invalid

/-- The nanoseconds after a point. Digits beyond the ninth do not count. -/
def readFraction (cs : List Char) : Result (Nat × List Char) :=
  match cs with
  | '.' :: cs => do
    let (n, rest) ← readNumber (some 9) cs
    let width := cs.length - rest.length
    return (n * Nat.pow 10 (9 - width), rest.dropWhile Text.isDigit)
  | cs => .ok (0, cs)

/-- What divides the hours of an offset from its minutes. -/
def isOffsetMark (c : Char) : Bool := c == ':' || Text.isBlank c

/-- Two digits of an offset, the first up to the given one. -/
def readOffsetPart (limit : Char) : List Char → Result (Nat × List Char)
  | a :: b :: cs =>
    if Text.isDigit a && Text.isDigit b then
      if a ≤ limit then .ok (10 * (a.toNat - '0'.toNat) + (b.toNat - '0'.toNat), cs)
      else .error .outOfRange
    else .error .invalid
  | [a] => .error (if a.utf8Size < 2 then .tooShort else .invalid)
  | [] => .error .tooShort

/-- The seconds by which an offset is ahead. -/
def readOffset (cs : List Char) : Result (Int × List Char) :=
  let parts (sign : Int) (cs : List Char) : Result (Int × List Char) := do
    let (hours, cs) ← readOffsetPart '9' cs
    let (minutes, cs) ← readOffsetPart '5' (cs.dropWhile isOffsetMark)
    return (sign * (hours * 3600 + minutes * 60 : Nat), cs)
  match cs with
  | [] => .error .tooShort
  | c :: rest =>
    if c = 'Z' || c = 'z' then .ok (0, rest)
    else if (cs.take 3).map Char.toUpper = ['U', 'T', 'C'] then .ok (0, cs.drop 3)
    else if c = '+' then parts 1 rest
    else if c = '-' || c = '\u2212' then parts (-1) rest
    else .error .invalid

/-- The years that have dates. -/
def yearInRange (y : Int) : Bool := -262143 ≤ y && y ≤ 262142

/-- Reads an instant. -/
def ofText (s : String) : Result Instant := do
  let (year, cs) ← readYear s.toList
  let cs ← readMark '-' cs
  let (month, cs) ← readField 1 12 cs
  let cs ← readMark '-' cs
  let (day, cs) ← readField 1 31 cs
  let cs ← match cs with
    | [] => throw .tooShort
    | c :: cs => if c = 'T' || c = 't' || c = ' ' then pure cs else throw .invalid
  let (hour, cs) ← readField 0 23 cs
  let cs ← readMark ':' cs
  let (minute, cs) ← readField 0 59 cs
  let cs ← readMark ':' cs
  let (second, cs) ← readField 0 60 cs
  let (nano, cs) ← readFraction cs
  let (offset, cs) ← readOffset (Text.trimLeft cs)
  if !(Text.trimLeft cs).isEmpty then throw .tooLong
  if !yearInRange year || Calendar.daysInMonth year month < day then throw .outOfRange
  if 86400 ≤ offset.natAbs then throw .outOfRange
  let leap := second = 60
  let time : Int := hour * 3600 + minute * 60 + (if leap then 59 else second : Nat)
  let shifted := time - offset
  let days := (Date.mk year month day).days + Int.fdiv shifted secondsPerDay
  if !yearInRange (Date.ofDays days).year then throw .impossible
  return ⟨days, (Int.fmod shifted secondsPerDay).toNat, nano + if leap then nanosPerSecond else 0⟩

end AssessmentPlans.Instant
