import AssessmentPlans.Decimal.Binary64

/-! The shortest decimal that reads back as a given binary64 number, and its
positional and scientific notation. -/
namespace AssessmentPlans.Decimal

/-- A positive decimal: `digits * 10 ^ exponent`. -/
structure ShortDecimal where
  digits : Nat
  exponent : Int
  deriving DecidableEq

/-- The reals that round to a number, as a closed or open interval whose ends
have the denominator `den`. -/
structure Basin where
  low : Nat
  value : Nat
  high : Nat
  den : Nat
  closed : Bool

/-- Half the distance to each neighbour; below a power of two the distance is
half as long, so the ends are counted in quarters of the last place. -/
def Binary64.basin (x : Binary64) : Basin :=
  let m := x.significand
  let below := if m = Nat.pow 2 52 ∧ -1074 < x.exponent then 1 else 2
  let (unit, den) := scale 1 4 (-x.exponent)
  ⟨(4 * m - below) * unit, 4 * m * unit, (4 * m + 2) * unit, den, m % 2 == 0⟩

/-- Whether `digits * 10 ^ exponent` lies in the interval. -/
def Basin.holds (b : Basin) (d : ShortDecimal) : Bool :=
  let v := if 0 ≤ d.exponent then d.digits * Nat.pow 10 d.exponent.toNat * b.den else d.digits * b.den
  let k := if 0 ≤ d.exponent then 1 else Nat.pow 10 (-d.exponent).toNat
  if b.closed then b.low * k ≤ v && v ≤ b.high * k else b.low * k < v && v < b.high * k

def digitCount (n : Nat) : Nat := (Nat.toDigits 10 n).length

/-- The exponent of the first digit of the interval's value. -/
def Basin.magnitude (b : Basin) : Int :=
  let e := (digitCount b.value : Int) - digitCount b.den
  let reached :=
    if 0 ≤ e then b.den * Nat.pow 10 e.toNat ≤ b.value else b.den ≤ b.value * Nat.pow 10 (-e).toNat
  if reached then e else e - 1

/-- The point of the grid `10 ^ exponent` that stands for the value: one of its
two neighbours there, the nearer if both lie in the interval, the even one of
two equally near. -/
def Basin.onGrid (b : Basin) (exponent : Int) : Option ShortDecimal :=
  let n := if 0 ≤ exponent then b.value else b.value * Nat.pow 10 (-exponent).toNat
  let d := if 0 ≤ exponent then b.den * Nat.pow 10 exponent.toNat else b.den
  let down : ShortDecimal := ⟨n / d, exponent⟩
  let up : ShortDecimal := ⟨n / d + 1, exponent⟩
  match b.holds down, b.holds up with
  | true, true => some ⟨roundDiv n d, exponent⟩
  | true, false => some down
  | false, true => some up
  | false, false => none

/-- Seventeen digits always suffice; fewer are tried first. -/
def Binary64.shortest (x : Binary64) : ShortDecimal :=
  let b := x.basin
  let places := (List.range 17).map fun (n : Nat) => b.magnitude - (n : Int)
  (places.findSome? b.onGrid).getD ⟨b.value / b.den, 0⟩

/-- The digits without trailing zeros, and the exponent of the first of them. -/
def ShortDecimal.leading (d : ShortDecimal) : List Char × Int :=
  let all := Nat.toDigits 10 d.digits
  let kept := (all.reverse.dropWhile (· == '0')).reverse
  (kept, d.exponent + all.length - 1)

/-- Positional notation with at least one digit on either side of the point. -/
def positional (digits : List Char) (first : Int) : List Char :=
  if first < 0 then
    '0' :: '.' :: List.replicate (-first - 1).toNat '0' ++ digits
  else
    let whole := first.toNat + 1
    let fraction := digits.drop whole
    digits.take whole ++ List.replicate (whole - digits.length) '0' ++ '.' ::
      (if fraction.isEmpty then ['0'] else fraction)

/-- Scientific notation with a signed exponent of at least two digits. -/
def scientific (digits : List Char) (first : Int) : List Char :=
  let e := Nat.toDigits 10 first.natAbs
  digits.take 1 ++ (if digits.length ≤ 1 then [] else '.' :: digits.drop 1) ++
    'e' :: (if first < 0 then '-' else '+') :: List.replicate (2 - e.length) '0' ++ e

/-- Text of a number: positional where the first digit stands at most sixteen
places before and five places after the point, unless `always` asks for it. -/
def Binary64.chars (always : Bool) (x : Binary64) : List Char :=
  let sign := if x.negative then ['-'] else []
  if x.isZero then sign ++ ['0', '.', '0'] else
    let (digits, first) := x.shortest.leading
    if always || (-5 ≤ first && first ≤ 15) then sign ++ positional digits first
    else sign ++ scientific digits first

end AssessmentPlans.Decimal
