/-! Binary64 numbers as exact data. Every operation computes with natural
numbers and rounds once, half to even; no machine arithmetic takes part. -/
namespace AssessmentPlans.Decimal

/-- A finite binary64 number: the significand times two to the exponent,
negated when `negative` holds. The exponent is at least -1074, the significand
below two to the 53rd and as large as these bounds admit. -/
structure Binary64 where
  negative : Bool
  significand : Nat
  exponent : Int
  deriving DecidableEq

/-- The quotient nearest to `n / d`; a half goes to the even neighbour. -/
def roundDiv (n d : Nat) : Nat :=
  let q := n / d
  let r := n % d
  if 2 * r < d || (2 * r == d && q % 2 == 0) then q else q + 1

/-- Numerator and denominator of `(n / d) / 2 ^ e`. -/
def scale (n d : Nat) (e : Int) : Nat × Nat :=
  if 0 ≤ e then (n, d * Nat.pow 2 e.toNat) else (n * Nat.pow 2 (-e).toNat, d)

namespace Binary64

def zero : Binary64 := ⟨false, 0, -1074⟩

def isZero (x : Binary64) : Bool := x.significand == 0

def neg (x : Binary64) : Binary64 := { x with negative := !x.negative }

/-- The non-negative number nearest to `n / d`, unless it is too large. -/
def ofRatio? (n d : Nat) : Option Binary64 :=
  if n = 0 then some zero else
    let low := max ((n.log2 : Int) - (d.log2 : Int) - 53) (-1074)
    let (n₀, d₀) := scale n d low
    let e := if Nat.pow 2 53 ≤ n₀ / d₀ then low + 1 else low
    let (n₁, d₁) := scale n d e
    let m := roundDiv n₁ d₁
    let (m, e) := if m = Nat.pow 2 53 then (Nat.pow 2 52, e + 1) else (m, e)
    if 971 < e then none else some ⟨false, m, e⟩

/-- Numerator and denominator of the magnitude. -/
def ratio (x : Binary64) : Nat × Nat := scale x.significand 1 (-x.exponent)

def mul? (x y : Binary64) : Option Binary64 :=
  (ofRatio? (x.ratio.1 * y.ratio.1) (x.ratio.2 * y.ratio.2)).map
    fun z => { z with negative := x.negative != y.negative }

/-- Quotient by a number other than zero that is at least one. -/
def div (x y : Binary64) : Binary64 :=
  match ofRatio? (x.ratio.1 * y.ratio.2) (x.ratio.2 * y.ratio.1) with
  | some z => { z with negative := x.negative != y.negative }
  | none => zero

/-- The number nearest to `10 ^ n`, for `n` up to 308. -/
def tenTo (n : Nat) : Binary64 := (ofRatio? (Nat.pow 10 n) 1).getD zero

/-- Divides by `10 ^ n`, in steps of at most 308 digits. -/
def divTenTo (x : Binary64) (n : Nat) : Binary64 :=
  if x.isZero then x
  else if n ≤ 308 then x.div (tenTo n)
  else divTenTo (x.div (tenTo 308)) (n - 308)
termination_by n

/-- Reads `significand * 10 ^ exponent`: the significand is rounded to a number
first, and then multiplied or divided by the number nearest to the power. -/
def ofDecimal? (significand : Nat) (exponent : Int) : Option Binary64 := do
  let x ← ofRatio? significand 1
  if exponent < 0 then some (x.divTenTo (-exponent).toNat)
  else if exponent ≤ 308 then x.mul? (tenTo exponent.toNat)
  else if x.isZero then some x else none

end Binary64
end AssessmentPlans.Decimal
