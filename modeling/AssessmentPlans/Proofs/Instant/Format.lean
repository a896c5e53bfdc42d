import AssessmentPlans.Instant.Format
import AssessmentPlans.Proofs.Except
import AssessmentPlans.Proofs.Instant.Calendar
import AssessmentPlans.Proofs.Text.Trim
import Mathlib.Algebra.Group.Nat.Defs

/-! The written form of an instant is read back as that instant, for all years that have
dates. -/
namespace AssessmentPlans.Instant
open Calendar (Date)

/-- An instant of a year that has dates, with the fractions of a second that a clock shows. -/
structure Datable (t : Instant) : Prop where
  second : t.second < secondsPerDay
  nano : t.nano < nanosPerSecond
  year : yearInRange (Date.ofDays t.day).year = true

/-! Numbers. -/

theorem naturalFrom?_digits {ds : List Char} (digits : ∀ c ∈ ds, Text.isDigit c = true) (start : Nat) :
    Text.naturalFrom? 10 start ds = some (Nat.ofDigitChars 10 ds start) := by
  induction ds generalizing start with
  | nil => rfl
  | cons c ds ih =>
      obtain ⟨first, others⟩ := List.forall_mem_cons.mp digits
      have bounds : '0' ≤ c ∧ c ≤ '9' := by
        simpa [Text.isDigit] using first
      have value : Text.digit? 10 c = some (c.toNat - '0'.toNat) := by
        have small : c.toNat - '0'.toNat < 10 := by
          have high : c.toNat ≤ '9'.toNat := bounds.2
          have nine : '9'.toNat = 57 := rfl
          have zero : '0'.toNat = 48 := rfl
          omega
        simp only [Text.digit?, bounds, decide_true, Bool.and_self, if_true, Option.filter_some,
          decide_eq_true small]
      rw [Text.naturalFrom?, value, Option.bind_some, ih others, Nat.ofDigitChars_cons]

theorem padded_digits {w n : Nat} : ∀ c ∈ padded w n, Text.isDigit c = true := by
  intro c hc
  rcases List.mem_append.mp hc with zero | digit
  · rw [List.eq_of_mem_replicate zero]
    rfl
  · have digit := Nat.isDigit_of_mem_toDigits (by decide) (by decide) digit
    simpa [Text.isDigit, Char.isDigit, Char.le_def] using digit

theorem padded_ne_nil {w n : Nat} : padded w n ≠ [] := by
  intro nil
  exact Nat.toDigits_ne_nil (List.append_eq_nil_iff.mp nil).2

theorem natural?_padded (w n : Nat) : Text.natural? 10 (padded w n) = some n := by
  rw [Text.natural?, if_neg (by simpa using padded_ne_nil), naturalFrom?_digits padded_digits, padded,
    Nat.ofDigitChars_append, Nat.ofDigitChars_replicate_zero, Nat.mul_zero,
    Nat.ofDigitChars_ten_toDigits]

theorem length_padded {w n : Nat} (some : 0 < w) (h : n < 10 ^ w) : (padded w n).length = w := by
  have short := (Nat.length_toDigits_le_iff (by decide) some).mpr h
  rw [padded, List.length_append, List.length_replicate]
  omega

theorem takeWhile_append {ds rest : List Char} (digits : ∀ c ∈ ds, Text.isDigit c = true) :
    (ds ++ rest).takeWhile Text.isDigit = ds ++ rest.takeWhile Text.isDigit :=
  List.takeWhile_append_of_pos digits

/-- Digits are read up to the given width, even if others follow. -/
theorem readNumber_padded {w n : Nat} {rest : List Char} (some : 0 < w) (h : n < 10 ^ w)
    (small : n < numberLimit) : readNumber (Option.some w) (padded w n ++ rest) = .ok (n, rest) := by
  have taken : (padded w n ++ rest.takeWhile Text.isDigit).take w = padded w n := by
    conv => lhs; arg 1; rw [← length_padded some h]
    exact List.take_left
  simp only [readNumber, takeWhile_append padded_digits, taken, natural?_padded, if_pos small,
    List.drop_left]

/-- All digits are read if they fit the width, or if there is none. -/
theorem readNumber_all {width : Option Nat} {w n : Nat} {rest : List Char}
    (fits : ∀ v, width = some v → (padded w n).length ≤ v)
    (ends : rest.takeWhile Text.isDigit = []) (small : n < numberLimit) :
    readNumber width (padded w n ++ rest) = .ok (n, rest) := by
  cases width with
  | none =>
      simp only [readNumber, takeWhile_append padded_digits, ends, List.append_nil,
        natural?_padded, if_pos small, List.drop_left]
  | some v =>
      have taken := List.take_of_length_le (fits v rfl)
      simp only [readNumber, takeWhile_append padded_digits, ends, List.append_nil, taken,
        natural?_padded, if_pos small, List.drop_left]

theorem lt_numberLimit {n : Nat} (h : n < 1000000000) : n < numberLimit :=
  Nat.lt_trans h (by decide)

/-! Fields and what divides them. -/

theorem not_blank_of_digit {c : Char} (h : Text.isDigit c = true) : Text.isBlank c = false := by
  have bounds : '0' ≤ c ∧ c ≤ '9' := by
    simpa [Text.isDigit] using h
  have low : '0'.toNat ≤ c.toNat := bounds.1
  have high : c.toNat ≤ '9'.toNat := bounds.2
  have zero : '0'.toNat = 48 := rfl
  have nine : '9'.toNat = 57 := rfl
  simp only [Text.isBlank, Bool.or_eq_false_iff, Bool.and_eq_false_iff, decide_eq_false_iff_not,
    beq_eq_false_iff_ne]
  omega

theorem trimLeft_padded {w n : Nat} {rest : List Char} :
    Text.trimLeft (padded w n ++ rest) = padded w n ++ rest := by
  have digits := @padded_digits w n
  cases form : padded w n with
  | nil => exact absurd form padded_ne_nil
  | cons c ds =>
      rw [form] at digits
      rw [List.cons_append, Text.trimLeft_cons (not_blank_of_digit (digits c List.mem_cons_self))]

theorem readField_padded {low high n : Nat} {rest : List Char} (h : low ≤ n) (h' : n ≤ high)
    (small : high < 100) : readField low high (padded 2 n ++ rest) = .ok (n, rest) := by
  have read : readNumber (some 2) (padded 2 n ++ rest) = .ok (n, rest) :=
    readNumber_padded (by decide) (by omega) (lt_numberLimit (by omega))
  simp only [readField, trimLeft_padded, read, bind, Except.bind, h, h', decide_true, Bool.and_self,
    if_true]
  rfl

theorem readMark_self {mark : Char} {rest : List Char} (h : Text.isBlank mark = false) :
    readMark mark (mark :: rest) = .ok rest := by
  simp only [readMark, Text.trimLeft_cons h, if_true]

theorem readYear_padded {n : Nat} {rest : List Char} (h : n ≤ 9999) :
    readYear (padded 4 n ++ rest) = .ok ((n : Int), rest) := by
  have low : -2147483648 ≤ (n : Int) := by omega
  have high : (n : Int) < 2147483648 := by omega
  have read : readNumber (some 4) (padded 4 n ++ rest) = .ok (n, rest) :=
    readNumber_padded (by decide) (by omega) (lt_numberLimit (by omega))
  have digits := @padded_digits 4 n
  have start := @trimLeft_padded 4 n rest
  cases form : padded 4 n with
  | nil => exact absurd form padded_ne_nil
  | cons c ds =>
      rw [form] at read digits start
      have digit := digits c List.mem_cons_self
      have minus : c ≠ '-' := by
        rintro rfl
        cases digit
      have plus : c ≠ '+' := by
        rintro rfl
        cases digit
      rw [List.cons_append] at read start ⊢
      simp [readYear, start, read, minus, plus, low, high, bind, Except.bind, Functor.map,
        Except.map, pure, Except.pure]

theorem readYear_yearChars {y : Int} {rest : List Char} (h : yearInRange y = true)
    (ends : rest.takeWhile Text.isDigit = []) : readYear (yearChars y ++ rest) = .ok (y, rest) := by
  have bounds : -262143 ≤ y ∧ y ≤ 262142 := by
    simpa [yearInRange] using h
  have low : -2147483648 ≤ y := by omega
  have high : y < 2147483648 := by omega
  unfold yearChars
  split
  · next plain =>
    have four : 0 ≤ y ∧ y ≤ 9999 := by
      simpa using plain
    rw [readYear_padded (by omega), Int.toNat_of_nonneg four.1]
  · have read : readNumber none (padded 4 y.natAbs ++ rest) = .ok (y.natAbs, rest) :=
      readNumber_all nofun ends (lt_numberLimit (by omega))
    split
    · next negative =>
      have value : -((y.natAbs : Nat) : Int) = y := by omega
      generalize y.natAbs = n at read value ⊢
      have start : Text.trimLeft ('-' :: (padded 4 n ++ rest)) = _ := Text.trimLeft_cons rfl
      simp [readYear, start, read, value, low, high, bind, Except.bind, Functor.map, Except.map,
        pure, Except.pure]
    · next positive =>
      have value : ((y.natAbs : Nat) : Int) = y := by omega
      generalize y.natAbs = n at read value ⊢
      have start : Text.trimLeft ('+' :: (padded 4 n ++ rest)) = _ := Text.trimLeft_cons rfl
      simp [readYear, start, read, value, low, high, bind, Except.bind, Functor.map, Except.map,
        pure, Except.pure]

/-- A fraction of so many digits, and the zone after it. -/
theorem readFraction_padded {w n : Nat} (some : 0 < w) (nine : w ≤ 9) (h : n < 10 ^ w) :
    readFraction ('.' :: (padded w n ++ ['Z'])) = .ok (n * Nat.pow 10 (9 - w), ['Z']) := by
  have bound : n < 1000000000 := Nat.lt_of_lt_of_le h (Nat.pow_le_pow_right (by decide) nine)
  have length := length_padded some h
  have read : readNumber (Option.some 9) (padded w n ++ ['Z']) = .ok (n, ['Z']) := by
    refine readNumber_all ?_ rfl (lt_numberLimit bound)
    rintro _ ⟨⟩
    rw [length]
    exact nine
  have width : (padded w n ++ ['Z']).length - ['Z'].length = w := by
    rw [List.length_append, length]
    exact Nat.add_sub_cancel w 1
  simp only [readFraction, read, bind, Except.bind, width]
  rfl

theorem readFraction_fractionChars {t : Instant} (h : t.nano < nanosPerSecond) :
    readFraction (t.fractionChars ++ ['Z']) = .ok (t.nano, ['Z']) := by
  have bound : t.nano < 1000000000 := h
  have whole : t.nano % nanosPerSecond = t.nano := Nat.mod_eq_of_lt h
  unfold fractionChars
  simp only [whole]
  split
  · next none =>
    rw [none]
    rfl
  · split
    · next milli =>
      rw [List.cons_append, readFraction_padded (by decide) (by decide) (by omega)]
      have value : t.nano / 1000000 * Nat.pow 10 6 = t.nano := by
        rw [show Nat.pow 10 6 = 1000000 from rfl]
        omega
      rw [value]
    · split
      · next micro =>
        rw [List.cons_append, readFraction_padded (by decide) (by decide) (by omega)]
        have value : t.nano / 1000 * Nat.pow 10 3 = t.nano := by
          rw [show Nat.pow 10 3 = 1000 from rfl]
          omega
        rw [value]
      · rw [List.cons_append, readFraction_padded (by decide) (by decide) (by omega)]
        exact congrArg (fun n => Except.ok (n, ['Z'])) (Nat.mul_one t.nano)

theorem toList_text {t : Instant} (h : t.nano < nanosPerSecond) :
    t.text.toList = yearChars (Date.ofDays t.day).year ++ '-' ::
      (padded 2 (Date.ofDays t.day).month ++ '-' :: (padded 2 (Date.ofDays t.day).day ++ 'T' ::
      (padded 2 (t.second / 3600) ++ ':' :: (padded 2 (t.second / 60 % 60) ++ ':' ::
      (padded 2 (t.second % 60) ++ (t.fractionChars ++ ['Z'])))))) := by
  have notLeap : t.isLeap = false := decide_eq_false (Nat.not_le.mpr h)
  simp only [text, textWith, dateChars, timeChars, notLeap, Bool.false_eq_true, if_false,
    Nat.add_zero, String.toList_ofList, List.append_assoc, List.cons_append]

theorem fdiv_secondsPerDay {n : Nat} (h : n < secondsPerDay) : (n : Int).fdiv secondsPerDay = 0 := by
  rw [Int.fdiv_eq_ediv_of_nonneg _ (by decide)]
  exact Int.ediv_eq_zero_of_lt (Int.natCast_nonneg _) (Int.ofNat_lt.mpr h)

theorem fmod_secondsPerDay {n : Nat} (h : n < secondsPerDay) :
    ((n : Int).fmod secondsPerDay).toNat = n := by
  rw [Int.fmod_eq_emod_of_nonneg _ (by decide)]
  rw [Int.emod_eq_of_lt (Int.natCast_nonneg _) (Int.ofNat_lt.mpr h), Int.toNat_natCast]

/-- An instant is what its written form says. -/
theorem Datable.ofText_text {t : Instant} (h : t.Datable) : ofText t.text = .ok t := by
  obtain ⟨second, nano, year⟩ := h
  obtain ⟨month, month'⟩ := Date.ofDays_month t.day
  obtain ⟨day, day'⟩ := Date.ofDays_day t.day
  have within : t.second < 86400 := second
  have short := Nat.le_trans day' (Calendar.daysInMonth_le _ _)
  -- What each part of the written form is read as, whatever comes after it.
  have years := fun rest => @readYear_yearChars (Date.ofDays t.day).year ('-' :: rest) year rfl
  have marks := fun rest => @readMark_self '-' rest rfl
  have colons := fun rest => @readMark_self ':' rest rfl
  have months := fun rest => @readField_padded 1 12 _ rest month month' (by decide)
  have monthDays := fun rest => @readField_padded 1 31 _ rest day short (by decide)
  have hours := fun rest => @readField_padded 0 23 (t.second / 3600) rest (Nat.zero_le _) (by omega)
    (by decide)
  have minutes := fun rest => @readField_padded 0 59 (t.second / 60 % 60) rest (Nat.zero_le _)
    (by omega) (by decide)
  have seconds := fun rest => @readField_padded 0 60 (t.second % 60) rest (Nat.zero_le _) (by omega)
    (by decide)
  have fraction := readFraction_fractionChars nano
  have zone : readOffset (Text.trimLeft ['Z']) = .ok (0, []) := rfl
  simp only [ofText, toList_text nano, years, marks, months, monthDays, colons, hours, minutes, seconds,
    fraction, zone, bind, Except.bind, pure, Except.pure, decide_true, Bool.true_or, if_true]
  -- The parts make up the instant again, and none of the checks at the end refuses it.
  have time : ((t.second / 3600 : Nat) : Int) * 3600 + ((t.second / 60 % 60 : Nat) : Int) * 60 +
      ((t.second % 60 : Nat) : Int) - 0 = t.second := by
    omega
  have ended : (Text.trimLeft []).isEmpty = true := rfl
  have inMonth : decide (Calendar.daysInMonth (Date.ofDays t.day).year (Date.ofDays t.day).month <
      (Date.ofDays t.day).day) = false := decide_eq_false (Nat.not_lt.mpr day')
  have leap : ¬t.second % 60 = 60 := by omega
  simp only [ended, inMonth, time, fdiv_secondsPerDay second, fmod_secondsPerDay second,
    Date.days_ofDays t.day, year, leap, Int.natAbs_zero, Int.add_zero, Nat.add_zero, Bool.not_true,
    Bool.or_self, Bool.false_eq_true, if_false]
  rfl

end AssessmentPlans.Instant
