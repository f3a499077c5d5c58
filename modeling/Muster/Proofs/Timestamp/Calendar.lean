import Mathlib.Tactic.IntervalCases
import Muster.Timestamp

/-!
# The calendar

* `Timestamp.Reckoned`: a day among those of 400 years, by its century, its cycle of four years, its year and
  the day of that year; every day is reckoned so (`Timestamp.exists_reckoned`).
* `Timestamp.dateIn`: the date of a day of a year that begins in March; **`Timestamp.dateOf_eq`**: the date of
  any day.
* **`Timestamp.daysOf_dateOf`**: the date of a day tells the day.
* **`Timestamp.dateOf_proper`**: it has a month of the twelve, and a day that this month has.
-/

namespace Muster.Timestamp

/-! ### Days among those of 400 years -/

/-- A day among those of 400 years, by century, cycle of four years, year, and day of that year. -/
structure Reckoned (day c q a d : Int) : Prop where
  sum : day = 36524 * c + 1461 * q + 365 * a + d
  century : 0 ≤ c ∧ c ≤ 3
  cycle : 0 ≤ q ∧ q ≤ 24
  year : 0 ≤ a ∧ a ≤ 3
  within : 0 ≤ d ∧ d ≤ 365
  leap : d = 365 → a = 3 ∧ (q = 24 → c = 3)

/-- Every day is reckoned so. -/
theorem exists_reckoned {day : Int} (first : 0 ≤ day) (last : day ≤ 146096) :
    ∃ c q a d, Reckoned day c q a d := by
  -- the last century has a day more than the others, and the last year of a cycle one more than the others
  obtain ⟨c, k, century, sum, low, high, more⟩ : ∃ c k : Int, (0 ≤ c ∧ c ≤ 3) ∧ day = 36524 * c + k ∧
      0 ≤ k ∧ k ≤ 36524 ∧ (k = 36524 → c = 3) := by
    by_cases leap : day = 146096
    · exact ⟨3, 36524, by omega⟩
    · exact ⟨day / 36524, day % 36524, by omega⟩
  obtain ⟨a, d, year, sum', low', high', more'⟩ : ∃ a d : Int, (0 ≤ a ∧ a ≤ 3) ∧
      k % 1461 = 365 * a + d ∧ 0 ≤ d ∧ d ≤ 365 ∧ (d = 365 → a = 3) := by
    by_cases leap : k % 1461 = 1460
    · exact ⟨3, 365, by omega⟩
    · exact ⟨k % 1461 / 365, k % 1461 % 365, by omega⟩
  exact ⟨c, k / 1461, a, d, by omega, century, by omega, year, ⟨low', high'⟩,
    fun leap => ⟨more' leap, by omega⟩⟩

variable {day c q a d : Int}

namespace Reckoned

/-- How the year is told from the day. -/
theorem year_eq (h : Reckoned day c q a d) :
    (day - day / 1460 + day / 36524 - day / 146096) / 365 = 100 * c + 4 * q + a := by
  obtain ⟨sum, century, cycle, year, within, leap⟩ := h
  have centuries : day / 36524 - day / 146096 = c := by
    by_cases last : q = 24 ∧ d = 365
    · have := leap last.2
      omega
    · have inside : 1461 * q + 365 * a + d ≤ 36523 := by omega
      have own : day / 36524 = c := by omega
      have none : day / 146096 = 0 := by omega
      omega
  have cycles : day / 1460 = 25 * c + q + (24 * c + q + 365 * a + d) / 1460 := by omega
  omega

/-- How the day of the year is told from the day. -/
theorem day_eq (h : Reckoned day c q a d) :
    day - (365 * (100 * c + 4 * q + a) + (100 * c + 4 * q + a) / 4 - (100 * c + 4 * q + a) / 100) = d := by
  obtain ⟨sum, century, cycle, year, within, leap⟩ := h
  omega

/-- A year with a day more ends in a leap year. -/
theorem leapYear (h : Reckoned day c q a d) (full : d = 365) (e : Int) :
    isLeapYear (100 * c + 4 * q + a + e * 400 + 1) = true := by
  obtain ⟨last, century⟩ := h.leap full
  obtain ⟨-, hc, hq, -, -, -⟩ := h
  unfold isLeapYear
  rw [Bool.and_eq_true, Bool.or_eq_true, decide_eq_true_eq, decide_eq_true_eq, decide_eq_true_eq]
  refine ⟨by omega, ?_⟩
  by_cases final : q = 24
  · have := century final
    exact .inr (by omega)
  · exact .inl (by omega)

end Reckoned

/-! ### Dates -/

/-- The date of a day of a year that begins in March. -/
def dateIn (year day : Int) : Date :=
  let monthFromMarch := (5 * day + 2) / 153
  let month := if monthFromMarch < 10 then monthFromMarch + 3 else monthFromMarch - 9
  ⟨year + (if month ≤ 2 then 1 else 0), month.toNat,
    (day - (153 * monthFromMarch + 2) / 5 + 1).toNat⟩

/-- **Dates.** The date of any day, counted from the start of 1970. -/
theorem dateOf_eq (days : Int) : ∃ c q a d,
    Reckoned (days + 719468 - (days + 719468).fdiv 146097 * 146097) c q a d ∧
      dateOf days = dateIn (100 * c + 4 * q + a + (days + 719468).fdiv 146097 * 400) d := by
  have range : 0 ≤ days + 719468 - (days + 719468).fdiv 146097 * 146097 ∧
      days + 719468 - (days + 719468).fdiv 146097 * 146097 ≤ 146096 := by
    rw [Int.fdiv_eq_ediv_of_nonneg _ (by decide)]
    omega
  obtain ⟨c, q, a, d, reckoned⟩ := exists_reckoned range.1 range.2
  refine ⟨c, q, a, d, reckoned, ?_⟩
  unfold dateOf
  dsimp only
  rw [reckoned.year_eq, reckoned.day_eq]
  rfl

section Within

variable (year : Int) (within : 0 ≤ d ∧ d ≤ 365)

include within

/-- Month and day tell the day of a year that begins in March, -/
theorem dayOfYear_dateIn : (153 * ((((dateIn year d).month + 9) % 12 : Nat) : Int) + 2) / 5 +
    (dateIn year d).day - 1 = d := by
  have month : ((((dateIn year d).month + 9) % 12 : Nat) : Int) = (5 * d + 2) / 153 := by
    unfold dateIn
    dsimp only
    split <;> omega
  rw [month]
  unfold dateIn
  dsimp only
  omega

/-- and month and year the year that begins in March. -/
theorem year_dateIn : (if (dateIn year d).month ≤ 2 then (dateIn year d).year - 1 else (dateIn year d).year) =
    year := by
  unfold dateIn
  dsimp only
  split <;> split <;> split <;> omega

theorem month_dateIn : 1 ≤ (dateIn year d).month ∧ (dateIn year d).month ≤ 12 ∧ 1 ≤ (dateIn year d).day := by
  unfold dateIn
  dsimp only
  split <;> omega

end Within

/-- Every month has the days on which dates of it fall. -/
theorem Reckoned.day_le (h : Reckoned day c q a d) (e : Int) :
    (dateIn (100 * c + 4 * q + a + e * 400) d).day ≤
      daysInMonth (dateIn (100 * c + 4 * q + a + e * 400) d).year
        (dateIn (100 * c + 4 * q + a + e * 400) d).month := by
  have within := h.within
  obtain ⟨m, month⟩ : ∃ m, (5 * d + 2) / 153 = m := ⟨_, rfl⟩
  have low : 0 ≤ m := by omega
  have high : m ≤ 11 := by omega
  unfold dateIn
  dsimp only
  rw [month]
  -- the months from March on; only February, the last of them, depends on the year
  interval_cases m
  case «11» =>
    show (d - 337 + 1).toNat ≤ if isLeapYear (100 * c + 4 * q + a + e * 400 + 1) then 29 else 28
    by_cases full : d = 365
    · rw [h.leapYear full, if_pos rfl]
      omega
    · split <;> omega
  all_goals
    simp only [daysInMonth]
    simp
    omega

/-- **Days.** The date of a day tells the day. -/
theorem daysOf_dateOf (days : Int) : daysOf (dateOf days) = days := by
  obtain ⟨c, q, a, d, reckoned, date⟩ := dateOf_eq days
  have count := reckoned.sum
  have within := reckoned.within
  obtain ⟨-, century, cycle, year, -, -⟩ := reckoned
  rw [date]
  unfold daysOf
  dsimp only
  rw [dayOfYear_dateIn _ within, year_dateIn _ within, Int.fdiv_eq_ediv_of_nonneg _ (by decide)]
  omega

/-- **Proper dates.** The date of a day has a month of the twelve, and a day that this month has. -/
theorem dateOf_proper (days : Int) : 1 ≤ (dateOf days).month ∧ (dateOf days).month ≤ 12 ∧
    1 ≤ (dateOf days).day ∧ (dateOf days).day ≤ daysInMonth (dateOf days).year (dateOf days).month := by
  obtain ⟨c, q, a, d, reckoned, date⟩ := dateOf_eq days
  rw [date]
  obtain ⟨low, high, first⟩ := month_dateIn (100 * c + 4 * q + a + (days + 719468).fdiv 146097 * 400)
    reckoned.within
  exact ⟨low, high, first, reckoned.day_le _⟩

end Muster.Timestamp
