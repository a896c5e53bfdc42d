import AssessmentPlans.Decimal.Binary64
import AssessmentPlans.Text.Characters

/-! Which plain scalars are numbers, and which ones. -/
namespace AssessmentPlans.Yaml
open Decimal (Binary64)

/-- A number that has no end is not a binary64 number. -/
inductive Real where
  | finite (x : Binary64)
  | infinity (negative : Bool)
  | undefined
  deriving DecidableEq

/-- Digits with a leading zero: a text, although it looks like a number. -/
def isPadded (cs : List Char) : Bool :=
  let digits := match cs with
    | '-' :: cs => cs
    | '+' :: cs => cs
    | cs => cs
  match digits with
  | '0' :: c :: cs => (c :: cs).all Text.isDigit
  | _ => false

/-- The magnitude behind a marker of its radix, or without any in decimal. -/
def magnitude? (cs : List Char) : Option Nat :=
  match cs with
  | '0' :: 'x' :: digits => Text.natural? 16 digits
  | '0' :: 'o' :: digits => Text.natural? 8 digits
  | '0' :: 'b' :: digits => Text.natural? 2 digits
  | digits => Text.natural? 10 digits

/-- The widest integers have 128 bits, with or without a sign. -/
def integer? (cs : List Char) : Option Int :=
  if isPadded cs then none
  else match cs with
    | '-' :: digits =>
      (magnitude? digits).bind fun n => if n ≤ Nat.pow 2 127 then some (-(n : Int)) else none
    | '+' :: digits => natural digits
    | digits => natural digits
where
  natural (digits : List Char) : Option Int :=
    (magnitude? digits).bind fun n => if n < Nat.pow 2 128 then some (n : Int) else none

/-- The nearest number to `digits * 10 ^ exponent`, unless it is too large. -/
def nearest? (digits : Nat) (exponent : Int) : Option Binary64 :=
  if digits = 0 then some .zero
  else
    let size := exponent + (Nat.toDigits 10 digits).length
    if size < -400 then some .zero
    else if 400 < size then none
    else if 0 ≤ exponent then Binary64.ofRatio? (digits * Nat.pow 10 exponent.toNat) 1
    else Binary64.ofRatio? digits (Nat.pow 10 (-exponent).toNat)

/-- The exponent at the end of a decimal, zero if there is none. -/
def exponent? (cs : List Char) : Option Int :=
  match cs with
  | [] => some 0
  | c :: cs =>
    if c != 'e' && c != 'E' then none
    else match cs with
      | '-' :: digits => (Text.natural? 10 digits).map fun n => -(n : Int)
      | '+' :: digits => (Text.natural? 10 digits).map fun n => (n : Int)
      | digits => (Text.natural? 10 digits).map fun n => (n : Int)

/-- A decimal without its sign: digits with or without a point among them. -/
def decimal? (cs : List Char) : Option Binary64 := do
  let whole := cs.takeWhile Text.isDigit
  let (fraction, rest) := match cs.dropWhile Text.isDigit with
    | '.' :: rest => (rest.takeWhile Text.isDigit, rest.dropWhile Text.isDigit)
    | rest => ([], rest)
  let digits ← Text.natural? 10 (whole ++ fraction)
  let exponent ← exponent? rest
  nearest? digits (exponent - fraction.length)

/-- Infinity is written in three ways, after its sign. -/
def isInfinity (cs : List Char) : Bool :=
  [".inf", ".Inf", ".INF"].any fun (w : String) => w.toList == cs

def isUndefined (cs : List Char) : Bool :=
  [".nan", ".NaN", ".NAN"].any fun (w : String) => w.toList == cs

def real? (cs : List Char) : Option Real :=
  if isUndefined cs then some .undefined
  else match cs with
    | '-' :: cs =>
      if isInfinity cs then some (.infinity true) else (decimal? cs).map fun x => .finite x.neg
    | '+' :: cs => unsigned cs
    | cs => unsigned cs
where
  unsigned (cs : List Char) : Option Real :=
    if isInfinity cs then some (.infinity false) else (decimal? cs).map .finite

end AssessmentPlans.Yaml
