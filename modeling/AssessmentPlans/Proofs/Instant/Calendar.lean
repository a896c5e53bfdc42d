import AssessmentPlans.Instant.Calendar

/-! The calendar: the date of a day exists, and is counted back to that day. -/
namespace AssessmentPlans.Calendar

/-- A day of an era by century, span of four years, year and day of the year, all from
March on. -/
structure EraDay (day c q y d : Int) : Prop where
  century : 0 ≤ c ∧ c ≤ 3
  span : 0 ≤ q ∧ q ≤ 24
  year : 0 ≤ y ∧ y ≤ 3
  rest : 0 ≤ d ∧ d ≤ 365
  leap : d = 365 → y = 3 ∧ (q < 24 ∨ c = 3)
  sum : day = 36524 * c + 1461 * q + 365 * y + d

theorem exists_eraDay {day : Int} (h : 0 ≤ day) (h' : day < 146097) :
    ∃ c q y d, EraDay day c q y d := by
  obtain ⟨c, hc⟩ : ∃ c, c = min (day / 36524) 3 := ⟨_, rfl⟩
  obtain ⟨q, hq⟩ : ∃ q, q = (day - 36524 * c) / 1461 := ⟨_, rfl⟩
  obtain ⟨y, hy⟩ : ∃ y, y = min ((day - 36524 * c - 1461 * q) / 365) 3 := ⟨_, rfl⟩
  refine ⟨c, q, y, day - 36524 * c - 1461 * q - 365 * y, ?_, ?_, ?_, ?_, ?_, ?_⟩
  all_goals omega

/-- A day of an era by its year there and the day of that year, from March on. The last
day of a year is there when the year that has begun meanwhile is a leap year. -/
structure YearOfEra (day y d : Int) : Prop where
  year : 0 ≤ y ∧ y ≤ 399
  rest : 0 ≤ d ∧ d ≤ 365
  first : day - (365 * y + y / 4 - y / 100) = d
  leap : d = 365 → (y + 1) % 4 = 0 ∧ ((y + 1) % 100 = 0 → (y + 1) % 400 = 0)

theorem yearOfEra {day : Int} (h : 0 ≤ day) (h' : day < 146097) :
    ∃ y d, YearOfEra day y d ∧ (day - day / 1460 + day / 36524 - day / 146096) / 365 = y := by
  obtain ⟨c, q, y, d, hc, hq, hy, hd, leap, sum⟩ := exists_eraDay h h'
  clear h h'
  refine ⟨100 * c + 4 * q + y, d, ⟨by clear leap; omega, hd, ?_, ?_⟩, ?_⟩
  · clear leap
    have fours : (100 * c + 4 * q + y) / 4 = 25 * c + q := by omega
    have hundreds : (100 * c + 4 * q + y) / 100 = c := by omega
    omega
  · intro last
    obtain ⟨third, within⟩ := leap last
    clear leap sum hd
    refine ⟨by omega, fun hundred => ?_⟩
    have lastSpan : q = 24 := by omega
    omega
  · have spans : day / 1460 = 25 * c + q + (24 * c + q + 365 * y + d) / 1460 := by omega
    have centuries : day / 36524 = c + day / 146096 := by
      have whole : day / 146096 = if c = 3 ∧ q = 24 ∧ d = 365 then 1 else 0 := by split <;> omega
      omega
    omega

/-- The month and the day of the month of a day of the year, from March on. -/
structure YearDay (d m k : Int) : Prop where
  month : 0 ≤ m ∧ m ≤ 11
  day : 1 ≤ k ∧ k ≤ 31
  sum : (153 * m + 2) / 5 + k - 1 = d
  short : m = 1 ∨ m = 3 ∨ m = 6 ∨ m = 8 → k ≤ 30
  last : m = 11 → k ≤ 29 ∧ (k = 29 → d = 365)

theorem yearDay {d : Int} (h : 0 ≤ d ∧ d ≤ 365) :
    YearDay d ((5 * d + 2) / 153) (d - (153 * ((5 * d + 2) / 153) + 2) / 5 + 1) := by
  constructor <;> omega

/-- A date from its era on, as it is found and as its days are counted. -/
theorem Date.ofDays_eq (n : Int) : ∃ era y d m k, YearOfEra (n + 719468 - era * 146097) y d ∧
    YearDay d m k ∧ Date.ofDays n = ⟨y + era * 400 + (if m < 10 then 0 else 1),
      (if m < 10 then m + 3 else m - 9).toNat, k.toNat⟩ := by
  have low := Int.emod_nonneg (n + 719468) (show (146097 : Int) ≠ 0 by decide)
  have high := Int.emod_lt_of_pos (n + 719468) (show (0 : Int) < 146097 by decide)
  have split : (n + 719468) - (n + 719468).fdiv 146097 * 146097 = (n + 719468) % 146097 := by
    rw [Int.fdiv_eq_ediv_of_nonneg _ (by decide)]
    omega
  rw [← split] at low high
  obtain ⟨y, d, place, found⟩ := yearOfEra low high
  refine ⟨_, y, d, _, _, place, yearDay place.rest, ?_⟩
  unfold Date.ofDays
  simp only [found, place.first]
  have month := (yearDay place.rest).month
  congr 1
  split <;> split <;> omega

theorem Date.days_ofDays (n : Int) : (Date.ofDays n).days = n := by
  obtain ⟨era, y, d, m, k, ⟨year, _, first, _⟩, ⟨month, day, sum, _, _⟩, form⟩ := ofDays_eq n
  have era' : (y + era * 400) / 400 = era := by omega
  have year' : y + era * 400 - era * 400 = y := by omega
  have day' : ((k.toNat : Nat) : Int) = k := by omega
  rw [form]
  unfold Date.days
  simp only [Int.fdiv_eq_ediv_of_nonneg _ (show (0 : Int) ≤ 400 by decide)]
  by_cases early : m < 10
  · have late : ¬(m + 3).toNat ≤ 2 := by omega
    have month' : (((m + 3).toNat : Nat) : Int) - 3 = m := by omega
    simp only [early, if_true, late, if_false, Int.add_zero, era', year', month', day']
    omega
  · have late : (m - 9).toNat ≤ 2 := by omega
    have month' : (((m - 9).toNat : Nat) : Int) + 9 = m := by omega
    simp only [early, if_false, late, if_true, Int.add_sub_cancel, era', year', month', day']
    omega

theorem Date.ofDays_month (n : Int) : 1 ≤ (Date.ofDays n).month ∧ (Date.ofDays n).month ≤ 12 := by
  obtain ⟨era, y, d, m, k, _, ⟨month, _, _, _, _⟩, form⟩ := ofDays_eq n
  rw [form]
  dsimp only
  split <;> omega

theorem Date.ofDays_day (n : Int) : 1 ≤ (Date.ofDays n).day ∧
    (Date.ofDays n).day ≤ daysInMonth (Date.ofDays n).year (Date.ofDays n).month := by
  obtain ⟨era, y, d, m, k, ⟨_, _, _, leap⟩, ⟨month, day, _, short, last⟩, form⟩ := ofDays_eq n
  rw [form]
  generalize number : (if m < 10 then m + 3 else m - 9).toNat = month'
  generalize since : y + era * 400 + (if m < 10 then 0 else 1) = year
  refine ⟨show 1 ≤ k.toNat by omega, show k.toNat ≤ daysInMonth year month' from ?_⟩
  unfold daysInMonth
  by_cases february : m = 11
  · obtain ⟨bound, leapDay⟩ := last february
    rw [if_pos (show month' = 2 by omega)]
    split
    · omega
    · next common =>
      have ne : k ≠ 29 := by
        intro whole
        obtain ⟨four, hundred⟩ := leap (leapDay whole)
        apply common
        rw [isLeapYear, Bool.and_eq_true, Bool.or_eq_true, beq_iff_eq, bne_iff_ne, beq_iff_eq]
        omega
      omega
  · rw [if_neg (show month' ≠ 2 by omega)]
    split
    · next thirty =>
      simp only [Bool.or_eq_true, decide_eq_true_eq] at thirty
      have bound := short (by omega)
      omega
    · omega

theorem daysInMonth_le (y : Int) (m : Nat) : daysInMonth y m ≤ 31 := by
  unfold daysInMonth
  split
  · split <;> decide
  · split <;> decide

end AssessmentPlans.Calendar
