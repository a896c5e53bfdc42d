import AssessmentPlans.Json.Reader

/-! Whole numbers of 64 bits, signed or not, are read back as they are written. Minus
zero is the one numeral without a fraction that stands for a fraction. -/
namespace AssessmentPlans.Json
open Decimal (Binary64)

/-- What a numeral without fraction and exponent stands for when it fits 64 bits. -/
def Number.Whole : Number → Prop
  | .integer n => -(Nat.pow 2 63 : Int) ≤ n ∧ n < (Nat.pow 2 64 : Int)
  | .real x => x = Binary64.zero.neg

namespace Numeral

/-- What follows a numeral does not go on with it. -/
def Ends (rest : List Char) : Prop :=
  ∀ c, rest.head? = some c → isDigit c = false ∧ c ≠ '.' ∧ c ≠ 'e' ∧ c ≠ 'E'

theorem ends_nil : Ends [] := nofun

theorem ends_cons {c : Char} {cs : List Char} (digit : isDigit c = false)
    (mark : c ≠ '.' ∧ c ≠ 'e' ∧ c ≠ 'E') : Ends (c :: cs) := by
  intro d hd
  cases hd
  exact ⟨digit, mark⟩

theorem isDigit_of_mem_toDigits {n : Nat} {c : Char} (h : c ∈ Nat.toDigits 10 n) :
    isDigit c = true := by
  have digit := Nat.isDigit_of_mem_toDigits (by decide) (by decide) h
  simpa [isDigit, Char.isDigit, Char.le_def] using digit

theorem natural_toDigits (n : Nat) : natural (Nat.toDigits 10 n) = n := by
  have same := @Nat.ofDigitChars_ten_toDigits n
  rw [Nat.ofDigitChars_eq_foldl] at same
  simpa only [natural, digit] using same

theorem head_toDigits_ne_zero {n : Nat} (h : n ≠ 0) : (Nat.toDigits 10 n).head? ≠ some '0' := by
  induction n using Nat.strongRecOn with
  | ind n ih =>
      rw [Nat.toDigits_eq_if (by decide)]
      split
      · next small =>
          have letters : ∀ d < 10, d ≠ 0 → [Nat.digitChar d].head? ≠ some '0' := by decide
          exact letters n small h
      · next large =>
          have shorter := ih (n / 10) (by omega) (by omega)
          cases digits : Nat.toDigits 10 (n / 10) with
          | nil => exact absurd digits Nat.toDigits_ne_nil
          | cons d ds =>
              rw [digits] at shorter
              exact shorter

theorem readDigits_append {ds rest : List Char} (digits : ∀ c ∈ ds, isDigit c = true)
    (some : ds ≠ []) (ends : Ends rest) : readDigits (ds ++ rest) = .ok (ds, rest) := by
  cases ds with
  | nil => exact absurd rfl some
  | cons d ds =>
      obtain ⟨first, others⟩ := List.forall_mem_cons.mp digits
      have stop : ∀ c, rest.head? = Option.some c → isDigit c = false := fun c hc => (ends c hc).1
      have taken : rest.takeWhile isDigit = [] ∧ rest.dropWhile isDigit = rest := by
        cases rest with
        | nil => exact ⟨rfl, rfl⟩
        | cons c cs => simp [stop c rfl]
      rw [List.cons_append, readDigits, if_pos first, List.takeWhile_append_of_pos others,
        List.dropWhile_append_of_pos others, taken.1, taken.2, List.append_nil]

theorem readWhole_toDigits (n : Nat) {rest : List Char} (ends : Ends rest) :
    readWhole (Nat.toDigits 10 n ++ rest) = .ok (Nat.toDigits 10 n, rest) := by
  have digits := readDigits_append (fun c hc => isDigit_of_mem_toDigits hc)
    (Nat.toDigits_ne_nil (n := n)) ends
  have canonical : ¬((Nat.toDigits 10 n).head? = some '0' ∧ Nat.toDigits 10 n ≠ ['0']) := by
    rintro ⟨zero, more⟩
    by_cases h : n = 0
    · subst h
      exact more (Nat.toDigits_zero 10)
    · exact head_toDigits_ne_zero h zero
  simp only [readWhole, digits, bind, Except.bind, canonical, if_false]
  rfl

theorem readFraction_none {rest : List Char} (ends : Ends rest) :
    readFraction rest = .ok (none, rest) := by
  unfold readFraction
  split
  · exact absurd rfl (ends '.' rfl).2.1
  · rfl

theorem readExponent_none {rest : List Char} (ends : Ends rest) :
    readExponent rest = .ok (none, rest) := by
  cases rest with
  | nil => rfl
  | cons c cs =>
      obtain ⟨_, _, small, large⟩ := ends c rfl
      simp [readExponent, small, large]

theorem read_toDigits (negative : Bool) (n : Nat) {rest : List Char} (ends : Ends rest) :
    read negative (Nat.toDigits 10 n ++ rest) =
      .ok (⟨negative, Nat.toDigits 10 n, none, none⟩, rest) := by
  simp only [read, readWhole_toDigits n ends, readFraction_none ends, readExponent_none ends,
    bind, Except.bind]
  rfl

theorem number?_toDigits (negative : Bool) {n : Nat}
    (bound : n < if negative then Nat.pow 2 63 + 1 else Nat.pow 2 64)
    (sign : negative = true → n ≠ 0) :
    number? ⟨negative, Nat.toDigits 10 n, none, none⟩ =
      some (.integer (if negative then -(n : Int) else n)) := by
  have zero : (negative && n == 0) = false := by
    cases negative with
    | false => rfl
    | true => simpa using sign rfl
  simp [number?, natural_toDigits, bound, zero]

theorem read_minusZero {rest : List Char} (ends : Ends rest) :
    read true ('0' :: '.' :: '0' :: rest) = .ok (⟨true, ['0'], some ['0'], none⟩, rest) := by
  have fraction : readDigits (['0'] ++ rest) = .ok (['0'], rest) :=
    readDigits_append (List.forall_mem_singleton.mpr rfl) (List.cons_ne_nil _ _) ends
  have exponent := readExponent_none ends
  have whole : readWhole ('0' :: '.' :: '0' :: rest) = .ok (['0'], '.' :: '0' :: rest) := rfl
  simp only [List.cons_append, List.nil_append] at fraction
  simp only [read, whole, readFraction, fraction, exponent, bind, Except.bind, pure, Except.pure]

theorem number?_minusZero :
    number? ⟨true, ['0'], some ['0'], none⟩ = some (.real Binary64.zero.neg) := by
  simp [number?, real?, natural, extend, digit, Binary64.ofDecimal?, Binary64.ofRatio?,
    Binary64.divTenTo, Binary64.isZero, Binary64.zero]

end Numeral
end AssessmentPlans.Json
