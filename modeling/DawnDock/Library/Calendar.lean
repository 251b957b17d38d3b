import Mathlib.Data.Int.Lemmas

/-!
The proleptic Gregorian calendar over all integers. A `Date` is a day that exists;
`dayNumber` counts days from 1970-01-01 and `ofDayNumber` finds the date of a day
by the 400-year era that starts on 1 March (`dayNumber_ofDayNumber`).
-/

namespace Calendar

def leap (year : Int) : Prop := year % 4 = 0 ∧ (year % 100 ≠ 0 ∨ year % 400 = 0)

instance (year : Int) : Decidable (leap year) := inferInstanceAs (Decidable (_ ∧ _))

def monthLength (year month : Int) : Int :=
  if month = 2 then if leap year then 29 else 28
  else if month = 4 ∨ month = 6 ∨ month = 9 ∨ month = 11 then 30
  else 31

structure Date where
  year : Int
  month : Int
  day : Int
  month_mem : 1 ≤ month ∧ month ≤ 12
  day_mem : 1 ≤ day ∧ day ≤ monthLength year month

/-- Days of the years before `year`, counted from the year 1. -/
def daysBeforeYear (year : Int) : Int :=
  365 * (year - 1) + (year - 1) / 4 - (year - 1) / 100 + (year - 1) / 400

theorem daysBeforeYear_succ (year : Int) :
    daysBeforeYear (year + 1) = daysBeforeYear year + (if leap year then 366 else 365) := by
  by_cases h : leap year
  · simp only [h, if_true]
    unfold daysBeforeYear leap at *
    omega
  · simp only [h, if_false]
    unfold daysBeforeYear leap at *
    omega

/-- Days of `year` before the first of `month`. -/
def daysBeforeMonth (year month : Int) : Int :=
  if month ≤ 2 then 31 * (month - 1)
  else (if leap year then 60 else 59) + (153 * (month - 3) + 2) / 5

/-- Days from 1970-01-01 to the date. -/
def Date.dayNumber (date : Date) : Int :=
  daysBeforeYear date.year + daysBeforeMonth date.year date.month + (date.day - 1) - 719162

/-! ### The date of a day

Years of an era start on 1 March, so that a leap day is the last day of its year. -/

/-- Day of the era on which the year `yearOfEra` starts. -/
def eraYearStart (yearOfEra : Int) : Int :=
  365 * yearOfEra + yearOfEra / 4 - yearOfEra / 100 + yearOfEra / 400

/-- The day of the era with the leap days before it taken out. -/
def withoutLeapDays (dayOfEra : Int) : Int :=
  dayOfEra - dayOfEra / 1460 + dayOfEra / 36524 - dayOfEra / 146096

theorem withoutLeapDays_mono {first second : Int} (le : first ≤ second) :
    withoutLeapDays first ≤ withoutLeapDays second := by
  unfold withoutLeapDays
  omega

theorem withoutLeapDays_yearStart : ∀ yearOfEra ∈ List.range 400,
    365 * yearOfEra ≤ withoutLeapDays (eraYearStart yearOfEra) ∧
      withoutLeapDays (eraYearStart (yearOfEra + 1) - 1) < 365 * (yearOfEra + 1) := by
  decide +kernel

/-- The year of a day of the era is the one whose start is the last at or before it. -/
theorem eraYear_bounds {dayOfEra : Int} (mem : 0 ≤ dayOfEra ∧ dayOfEra < 146097) :
    0 ≤ withoutLeapDays dayOfEra / 365 ∧ withoutLeapDays dayOfEra / 365 < 400 ∧
      eraYearStart (withoutLeapDays dayOfEra / 365) ≤ dayOfEra ∧
      dayOfEra < eraYearStart (withoutLeapDays dayOfEra / 365 + 1) := by
  have range : 0 ≤ withoutLeapDays dayOfEra / 365 ∧ withoutLeapDays dayOfEra / 365 < 400 := by
    unfold withoutLeapDays
    omega
  obtain ⟨year, year_eq⟩ := Int.eq_ofNat_of_zero_le range.1
  have start := withoutLeapDays_yearStart year (List.mem_range.mpr (by omega))
  rw [year_eq]
  refine ⟨by omega, by omega, ?_, ?_⟩
  · by_contra before
    have := withoutLeapDays_mono (show dayOfEra ≤ eraYearStart year - 1 by omega)
    cases year with
    | zero => exact before (by simpa [eraYearStart] using mem.1)
    | succ year =>
        have previous := (withoutLeapDays_yearStart year (List.mem_range.mpr (by omega))).2
        push_cast at *
        omega
  · by_contra after
    have := withoutLeapDays_mono (show eraYearStart (year + 1) ≤ dayOfEra by omega)
    rcases Nat.lt_or_ge (year + 1) 400 with inside | last
    · have next := (withoutLeapDays_yearStart (year + 1) (List.mem_range.mpr inside)).1
      push_cast at *
      omega
    · obtain rfl : year = 399 := by omega
      exact after (by simpa [eraYearStart] using mem.2)

section OfDayNumber

variable (dayNumber : Int)

def dayOfEra : Int := (dayNumber + 719468) % 146097

def era : Int := (dayNumber + 719468) / 146097

def yearOfEra : Int := withoutLeapDays (dayOfEra dayNumber) / 365

def dayOfYear : Int := dayOfEra dayNumber - eraYearStart (yearOfEra dayNumber)

/-- Months from March. -/
def monthPrime : Int := (5 * dayOfYear dayNumber + 2) / 153

def civilDay : Int := dayOfYear dayNumber - (153 * monthPrime dayNumber + 2) / 5 + 1

def civilMonth : Int :=
  if monthPrime dayNumber < 10 then monthPrime dayNumber + 3 else monthPrime dayNumber - 9

def civilYear : Int :=
  yearOfEra dayNumber + era dayNumber * 400 + (if civilMonth dayNumber ≤ 2 then 1 else 0)

theorem dayOfEra_mem : 0 ≤ dayOfEra dayNumber ∧ dayOfEra dayNumber < 146097 := by
  unfold dayOfEra
  omega

theorem yearOfEra_mem : 0 ≤ yearOfEra dayNumber ∧ yearOfEra dayNumber < 400 :=
  have bounds := eraYear_bounds (dayOfEra_mem dayNumber)
  ⟨bounds.1, bounds.2.1⟩

/-- The last day of a long year is the leap day of the year that follows in January. -/
theorem dayOfYear_mem : 0 ≤ dayOfYear dayNumber ∧ dayOfYear dayNumber ≤ 365 ∧
    (dayOfYear dayNumber = 365 → leap (yearOfEra dayNumber + era dayNumber * 400 + 1)) := by
  obtain ⟨_, _, start, next⟩ := eraYear_bounds (dayOfEra_mem dayNumber)
  have year := yearOfEra_mem dayNumber
  unfold dayOfYear leap
  rw [← yearOfEra] at start next
  unfold eraYearStart at *
  omega

theorem monthPrime_mem : 0 ≤ monthPrime dayNumber ∧ monthPrime dayNumber ≤ 11 := by
  have := dayOfYear_mem dayNumber
  unfold monthPrime
  omega

theorem civilMonth_mem : 1 ≤ civilMonth dayNumber ∧ civilMonth dayNumber ≤ 12 := by
  have := monthPrime_mem dayNumber
  unfold civilMonth
  split <;> omega

theorem civilDay_mem : 1 ≤ civilDay dayNumber ∧
    civilDay dayNumber ≤ monthLength (civilYear dayNumber) (civilMonth dayNumber) := by
  obtain ⟨first, last, long⟩ := dayOfYear_mem dayNumber
  have month := monthPrime_mem dayNumber
  have prime : monthPrime dayNumber = (5 * dayOfYear dayNumber + 2) / 153 := rfl
  unfold civilDay civilYear civilMonth monthLength
  obtain h | h | h | h | h | h | h | h | h | h | h | h :
      monthPrime dayNumber = 0 ∨ monthPrime dayNumber = 1 ∨ monthPrime dayNumber = 2 ∨
      monthPrime dayNumber = 3 ∨ monthPrime dayNumber = 4 ∨ monthPrime dayNumber = 5 ∨
      monthPrime dayNumber = 6 ∨ monthPrime dayNumber = 7 ∨ monthPrime dayNumber = 8 ∨
      monthPrime dayNumber = 9 ∨ monthPrime dayNumber = 10 ∨ monthPrime dayNumber = 11 := by omega
  all_goals rw [h] at prime
  all_goals simp [h]
  all_goals try omega
  split
  · omega
  · rename_i short
    have : dayOfYear dayNumber ≠ 365 := fun longest => short (long longest)
    omega

end OfDayNumber

/-- The date of a day. -/
def Date.ofDayNumber (dayNumber : Int) : Date where
  year := civilYear dayNumber
  month := civilMonth dayNumber
  day := civilDay dayNumber
  month_mem := civilMonth_mem dayNumber
  day_mem := civilDay_mem dayNumber

/-- The first of March is `eraYearStart` days into the era. -/
theorem daysBeforeYear_march (yearOfEra era : Int) (mem : 0 ≤ yearOfEra ∧ yearOfEra < 400) :
    daysBeforeYear (yearOfEra + era * 400 + 1) = eraYearStart yearOfEra + era * 146097 := by
  unfold daysBeforeYear eraYearStart
  omega

theorem dayNumber_ofDayNumber (dayNumber : Int) :
    (Date.ofDayNumber dayNumber).dayNumber = dayNumber := by
  have march := daysBeforeYear_march _ (era dayNumber) (yearOfEra_mem dayNumber)
  have month := monthPrime_mem dayNumber
  have days : dayNumber + 719468 = dayOfEra dayNumber + 146097 * era dayNumber := by
    unfold dayOfEra era
    omega
  have inYear : dayOfYear dayNumber = dayOfEra dayNumber - eraYearStart (yearOfEra dayNumber) := rfl
  unfold Date.dayNumber Date.ofDayNumber daysBeforeMonth
  simp only [civilDay, civilYear, civilMonth]
  by_cases before : monthPrime dayNumber < 10
  · -- from March on the year is the one the era year starts in
    have next := daysBeforeYear_succ (yearOfEra dayNumber + era dayNumber * 400)
    simp only [before, if_true, show ¬ monthPrime dayNumber + 3 ≤ 2 by omega, if_false]
    split at next <;> simp_all <;> omega
  · simp only [before, if_false, show monthPrime dayNumber - 9 ≤ 2 by omega, if_true]
    omega

/-! ### Weekdays -/

/-- Weekday of a day, 0 for Monday; 1970-01-01 was a Thursday. -/
def weekday (dayNumber : Int) : Int := (dayNumber + 3) % 7

end Calendar
