import Paywatch.Time.Instant

/-!
# Days and milliseconds

A date is told by its number of days since 1970, and an instant outside leap seconds
by its number of milliseconds as far as these go.  Years are counted from March:  a
year starts behind all days of the years before it, and its days are numbered
through, the leap day last.
-/

namespace Paywatch

namespace Calendar

variable {year year' : Int} {month month' day day' : Nat}

/-- The year from March to February that a month lies in. -/
def marchYear (year : Int) (month : Nat) : Int := if month ≤ 2 then year - 1 else year

/-- The number of a month from March on. -/
def monthFromMarch (month : Nat) : Nat := (month + 9) % 12

/-- The days of a year from March before one of its months. -/
def monthStart (fromMarch : Nat) : Nat := (153 * fromMarch + 2) / 5

/-- The days before a year from March. -/
def yearStart (year : Int) : Int := 365 * year + year / 4 - year / 100 + year / 400

theorem daysSince1970_eq (year : Int) (month day : Nat) :
    daysSince1970 year month day =
      yearStart (marchYear year month) +
        (monthStart (monthFromMarch month) + day - 1 : Nat) - 719468 := by
  have floor : ∀ (y : Int) {k : Int}, 0 ≤ k → y.fdiv k = y / k :=
    fun y _ => Int.fdiv_eq_ediv_of_nonneg y
  simp only [daysSince1970, floor _ (show (0 : Int) ≤ 400 by decide),
    floor _ (show (0 : Int) ≤ 100 by decide), floor _ (show (0 : Int) ≤ 4 by decide),
    yearStart, marchYear, monthStart, monthFromMarch]
  generalize (if month ≤ 2 then year - 1 else year) = y
  omega

theorem isDate_iff : isDate year month day = true ↔
    minYear ≤ year ∧ year ≤ maxYear ∧ 1 ≤ month ∧ month ≤ 12 ∧ 1 ≤ day ∧
      day ≤ daysInMonth year month := by
  simp [isDate, and_assoc]

/-- The days of a month end before the next month starts. -/
theorem daysInMonth_le_monthStart (year : Int) (low : 1 ≤ month) (high : month ≤ 12) :
    monthStart (monthFromMarch month) + daysInMonth year month ≤
      monthStart (monthFromMarch month + 1) := by
  unfold daysInMonth
  split
  · split <;> decide
  · decide
  · decide
  · decide
  · decide
  · rename_i february april june september november
    have long : month = 1 ∨ month = 3 ∨ month = 5 ∨ month = 7 ∨ month = 8 ∨ month = 10 ∨
      month = 12 := by
      have others : month ≠ 2 ∧ month ≠ 4 ∧ month ≠ 6 ∧ month ≠ 9 ∧ month ≠ 11 :=
        ⟨february, april, june, september, november⟩
      omega
    rcases long with rfl | rfl | rfl | rfl | rfl | rfl | rfl <;> decide

/-- The days of a year from March end before the next one starts:  only before a leap
year's March is there a 366th. -/
theorem dayOfYear_lt (low : 1 ≤ month) (high : month ≤ 12) (positive : 1 ≤ day)
    (fits : day ≤ daysInMonth year month) :
    yearStart (marchYear year month) +
      (monthStart (monthFromMarch month) + day - 1 : Nat) <
      yearStart (marchYear year month + 1) := by
  have ends := daysInMonth_le_monthStart year low high
  by_cases february : month = 2
  · subst february
    have leap : isLeapYear year = true → year % 4 = 0 ∧
      (year % 100 ≠ 0 ∨ year % 400 = 0) := by
      simp [isLeapYear]
    simp only [daysInMonth] at fits
    simp only [marchYear, monthStart, monthFromMarch, yearStart]
    split at fits
    · rename_i isLeap
      have divides := leap isLeap
      omega
    · omega
  · have before : monthFromMarch month + 1 ≤ 11 := by
      simp only [monthFromMarch]
      omega
    simp only [marchYear, yearStart, monthStart] at ends ⊢
    generalize monthFromMarch month = m at ends before ⊢
    omega

theorem yearStart_mono (before : year ≤ year') : yearStart year ≤ yearStart year' := by
  simp only [yearStart]
  omega

/-- No two dates have the same number of days. -/
theorem daysSince1970_injective (date : isDate year month day = true)
    (date' : isDate year' month' day' = true)
    (same : daysSince1970 year month day = daysSince1970 year' month' day') :
    year = year' ∧ month = month' ∧ day = day' := by
  obtain ⟨-, -, low, high, positive, fits⟩ := isDate_iff.1 date
  obtain ⟨-, -, low', high', positive', fits'⟩ := isDate_iff.1 date'
  rw [daysSince1970_eq, daysSince1970_eq] at same
  have within := dayOfYear_lt low high positive fits
  have within' := dayOfYear_lt low' high' positive' fits'
  have sameYear : marchYear year month = marchYear year' month' := by
    rcases Int.lt_trichotomy (marchYear year month) (marchYear year' month') with
      earlier | here | later
    · have starts :=
        yearStart_mono (show marchYear year month + 1 ≤ marchYear year' month' by omega)
      omega
    · exact here
    · have starts :=
        yearStart_mono (show marchYear year' month' + 1 ≤ marchYear year month by omega)
      omega
  rw [sameYear] at same
  have ends := daysInMonth_le_monthStart year low high
  have ends' := daysInMonth_le_monthStart year' low' high'
  have sameMonth : monthFromMarch month = monthFromMarch month' := by
    simp only [monthStart] at same ends ends'
    omega
  have months : month = month' := by
    simp only [monthFromMarch] at sameMonth
    omega
  subst months
  refine ⟨?_, rfl, by omega⟩
  simp only [marchYear] at sameYear
  split at sameYear <;> omega

end Calendar

namespace Instant

/-- The instants show the same date and clock down to the millisecond. -/
structure AgreeToMilli (t u : Instant) : Prop where
  year : t.year = u.year
  month : t.month = u.month
  day : t.day = u.day
  hour : t.hour = u.hour
  minute : t.minute = u.minute
  second : t.second = u.second
  milli : t.nanos / 1000000 = u.nanos / 1000000

theorem valid_iff (t : Instant) :
    Calendar.isDate t.year t.month t.day = true ∧ t.hour < 24 ∧ t.minute < 60 ∧
    t.second ≤ 60 ∧ t.nanos < 1000000000 := by
  have valid := t.valid
  simpa [and_assoc] using valid

/-- Outside leap seconds the number of milliseconds tells everything down
to the millisecond. -/
theorem agreeToMilli_of_epochMillis {t u : Instant} (same : t.epochMillis = u.epochMillis)
    (ordinary : t.second < 60) (ordinary' : u.second < 60) : AgreeToMilli t u := by
  obtain ⟨date, hour, minute, -, nanos⟩ := t.valid_iff
  obtain ⟨date', hour', minute', -, nanos'⟩ := u.valid_iff
  simp only [epochMillis, epochMinutes] at same
  have days :
      Calendar.daysSince1970 t.year t.month t.day =
        Calendar.daysSince1970 u.year u.month u.day := by omega
  obtain ⟨year, month, day⟩ := Calendar.daysSince1970_injective date date' days
  rw [days] at same
  constructor
  case year => exact year
  case month => exact month
  case day => exact day
  all_goals omega

end Instant

end Paywatch
