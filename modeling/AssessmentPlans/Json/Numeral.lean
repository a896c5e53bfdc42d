import AssessmentPlans.Json.Draft

/-! Numerals: their form in a text and the number that each stands for. -/
namespace AssessmentPlans.Json
open Decimal (Binary64)

/-- The parts of a numeral. The exponent comes with its sign, true for minus. -/
structure Numeral where
  negative : Bool
  whole : List Char
  fraction : Option (List Char)
  exponent : Option (Bool × List Char)

namespace Numeral

def isDigit (c : Char) : Bool := '0' ≤ c && c ≤ '9'

def digit (c : Char) : Nat := c.toNat - '0'.toNat

/-- A text that ends inside a numeral: one who passes over it sees a bad number. -/
def cut : Stop := ⟨.endInValue, .invalidNumber, .trailingCharacters⟩

/-- At least one digit, and what follows the last. -/
def readDigits : List Char → Except Stop (List Char × List Char)
  | [] => .error cut
  | c :: cs =>
    if isDigit c then .ok (c :: cs.takeWhile isDigit, cs.dropWhile isDigit)
    else .error (.hard .invalidNumber)

/-- A whole part has no leading zero, unless it is zero. -/
def readWhole (cs : List Char) : Except Stop (List Char × List Char) := do
  let (digits, rest) ← readDigits cs
  if digits.head? = some '0' ∧ digits ≠ ['0'] then .error (.hard .invalidNumber)
  else return (digits, rest)

def readFraction (cs : List Char) : Except Stop (Option (List Char) × List Char) :=
  match cs with
  | '.' :: cs => do
    let (digits, rest) ← readDigits cs
    return (some digits, rest)
  | cs => .ok (none, cs)

def readExponent (cs : List Char) : Except Stop (Option (Bool × List Char) × List Char) :=
  match cs with
  | c :: cs =>
    if c = 'e' || c = 'E' then do
      let (negative, cs) := match cs with
        | '+' :: cs => (false, cs)
        | '-' :: cs => (true, cs)
        | cs => (false, cs)
      let (digits, rest) ← readDigits cs
      return (some (negative, digits), rest)
    else .ok (none, c :: cs)
  | [] => .ok (none, [])

/-- Reads a numeral from its first digit on. -/
def read (negative : Bool) (cs : List Char) : Except Stop (Numeral × List Char) := do
  let (whole, cs) ← readWhole cs
  let (fraction, cs) ← readFraction cs
  let (exponent, cs) ← readExponent cs
  return (⟨negative, whole, fraction, exponent⟩, cs)

def natural (digits : List Char) : Nat := digits.foldl (fun n c => 10 * n + digit c) 0

/-- Appends digits to a significand of at most 64 bits. The second part counts
the digits from the first one on that does not fit. -/
def extend (significand : Nat) : List Char → Nat × Nat
  | [] => (significand, 0)
  | c :: cs =>
    let next := 10 * significand + digit c
    if next < Nat.pow 2 64 then extend next cs else (significand, cs.length + 1)

/-- The number as a fraction. Digits beyond 64 bits count for the exponent only,
and an exponent beyond 31 bits means zero or no number at all. -/
def real? (n : Numeral) : Option Binary64 :=
  let (whole, surplus) := extend 0 n.whole
  let decimals := n.fraction.getD []
  let (significand, unused) := extend whole decimals
  let shift : Int := (surplus : Int) - (decimals.length - unused : Nat)
  let magnitude := match n.exponent with
    | none => Binary64.ofDecimal? significand shift
    | some (negative, digits) =>
      let e := natural digits
      if Nat.pow 2 31 ≤ e then
        if significand ≠ 0 && !negative then none else some Binary64.zero
      else Binary64.ofDecimal? significand (if negative then shift - e else shift + e)
  magnitude.map fun x => if n.negative then x.neg else x

/-- Integers of 64 bits, signed or not, stay integers; minus zero does not. -/
def number? (n : Numeral) : Option Number :=
  let size := natural n.whole
  let bound := if n.negative then Nat.pow 2 63 + 1 else Nat.pow 2 64
  if n.fraction.isNone && n.exponent.isNone && size < bound && !(n.negative && size == 0) then
    some (.integer (if n.negative then -(size : Int) else size))
  else n.real?.map .real

end Numeral
end AssessmentPlans.Json
