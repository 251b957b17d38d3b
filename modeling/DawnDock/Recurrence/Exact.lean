import DawnDock.Recurrence.Resolver
import DawnDock.Library.Calendar
import DawnDock.Library.MachineInt

/-!
The resolver's date arithmetic is exact: days, weekdays and civil dates computed in
machine integers are those of the calendar over the integers.
-/

namespace DawnDock

open MachineInt Calendar

theorem kSecondsPerDay_toInt : kSecondsPerDay.toInt = 86400 := rfl

theorem floorDiv_toInt (seconds : Int64) :
    (floorDiv seconds kSecondsPerDay).toInt = seconds.toInt / 86400 := by
  have low := seconds.le_toInt
  have high := seconds.toInt_lt
  rw [← floor_of_trunc seconds.toInt (by decide : (0 : Int) < 86400)]
  have quotient : (seconds / kSecondsPerDay).toInt = seconds.toInt.tdiv 86400 := toInt_div (by decide)
  have remainder : (seconds % kSecondsPerDay).toInt = seconds.toInt.tmod 86400 := Int64.toInt_mod ..
  have negative : seconds % kSecondsPerDay < 0 ↔ seconds.toInt.tmod 86400 < 0 := by
    rw [Int64.lt_iff_toInt_lt, remainder]
    rfl
  have bounds := Int.tdiv_eq_ediv (a := seconds.toInt) (b := 86400)
  rw [show Int.sign 86400 = 1 from rfl] at bounds
  unfold floorDiv
  simp only [negative]
  split
  · rw [toInt_sub, quotient]
    · rfl
    · rw [quotient, show (1 : Int64).toInt = 1 from rfl]
      split at bounds <;> omega
  · exact quotient

/-- Days whose seconds fit are far from the ends of the 64-bit range. -/
def NearDay (days : Int64) : Prop := -2 ^ 62 ≤ days.toInt ∧ days.toInt ≤ 2 ^ 62

/-! ### Weekdays -/

/-- The mask selects the weekday, 0 for Monday. -/
def Selects (mask : UInt8) (weekday : Int) : Prop := mask.toNat.testBit weekday.toNat

instance (mask : UInt8) (weekday : Int) : Decidable (Selects mask weekday) :=
  inferInstanceAs (Decidable (_ = true))

theorem and_weekdayBit_eq_zero : ∀ mask : Fin 256, ∀ weekday : Fin 7,
    UInt8.ofNat mask &&& weekdayBit (isoWeekdayOfIndex (Int64.ofNat weekday)) = 0 ↔
      (mask : Nat).testBit weekday = false := by
  decide +kernel

theorem weekdayFromDays_eq {days : Int64} (near : NearDay days) :
    weekdayFromDays days = isoWeekdayOfIndex (Int64.ofNat (weekday days.toInt).toNat) := by
  obtain ⟨low, high⟩ := near
  have shifted : (days + 3).toInt = days.toInt + 3 :=
    toInt_add (by rw [show (3 : Int64).toInt = 3 from rfl]; omega)
  have remainder : ((days + 3) % 7).toInt = (days.toInt + 3).tmod 7 := by
    rw [Int64.toInt_mod, shifted]
    rfl
  have negative : (days + 3) % 7 < 0 ↔ (days.toInt + 3).tmod 7 < 0 := by
    rw [Int64.lt_iff_toInt_lt, remainder]
    rfl
  have floor := emod_of_trunc (days.toInt + 3) (by decide : (0 : Int) < 7)
  have range : 0 ≤ (days.toInt + 3) % 7 ∧ (days.toInt + 3) % 7 < 7 := by omega
  unfold weekdayFromDays
  refine congrArg isoWeekdayOfIndex (Int64.toInt_inj.mp ?_)
  rw [Int64.toInt_ofNat_of_lt (by unfold weekday; omega), weekday, Int.toNat_of_nonneg range.1,
    ← floor]
  simp only [negative]
  split
  · rw [toInt_add, remainder]
    · rfl
    · rw [remainder, show (7 : Int64).toInt = 7 from rfl]
      omega
  · exact remainder

theorem masked_iff {mask : UInt8} {days : Int64} (near : NearDay days) :
    mask &&& weekdayBit (weekdayFromDays days) = 0 ↔ ¬ Selects mask (weekday days.toInt) := by
  have range : (weekday days.toInt).toNat < 7 := by
    unfold weekday
    omega
  have bit := and_weekdayBit_eq_zero ⟨mask.toNat, mask.toNat_lt⟩ ⟨_, range⟩
  rw [weekdayFromDays_eq near, Selects, Bool.not_eq_true, ← bit, UInt8.ofNat_toNat]

/-! ### Civil dates -/

/-- The civil year of the day fits in an `int`. -/
def CivilYearFits (days : Int) : Prop :=
  -2 ^ 31 ≤ (Date.ofDayNumber days).year ∧ (Date.ofDayNumber days).year < 2 ^ 31

instance (days : Int) : Decidable (CivilYearFits days) := inferInstanceAs (Decidable (_ ∧ _))

/-- The machine date is the calendar's. -/
structure CivilDate.Reads (civil : CivilDate) (date : Date) : Prop where
  year : civil.year.toInt = date.year
  month : (civil.month.toNat : Int) = date.month
  day : (civil.day.toNat : Int) = date.day

/-- The era of a day, from the machine's truncating division. -/
theorem era_toInt {days : Int64} (near : NearDay days) :
    ((if days + 719468 ≥ 0 then days + 719468 else days + 719468 - 146096) / 146097).toInt =
      era days.toInt := by
  obtain ⟨low, high⟩ := near
  have shifted : (days + 719468).toInt = days.toInt + 719468 :=
    toInt_add (by rw [show (719468 : Int64).toInt = 719468 from rfl]; omega)
  have start : (if days + 719468 ≥ 0 then days + 719468 else days + 719468 - 146096).toInt =
      if 0 ≤ days.toInt + 719468 then days.toInt + 719468
      else days.toInt + 719468 - 146096 := by
    simp only [ge_iff_le, Int64.le_iff_toInt_le, Int64.toInt_zero, shifted]
    split
    · exact shifted
    · rw [toInt_sub (by rw [shifted, show (146096 : Int64).toInt = 146096 from rfl]; omega), shifted]
      rfl
  rw [toInt_div (by decide), start, show (146097 : Int64).toInt = 146097 from rfl, era,
    Int.tdiv_eq_ediv, show Int.sign 146097 = 1 from rfl]
  split <;> split <;> omega

theorem dayOfEra_toInt {days eraOf : Int64} (near : NearDay days)
    (is_era : eraOf.toInt = era days.toInt) :
    (days + 719468 - eraOf * 146097).toInt = dayOfEra days.toInt := by
  obtain ⟨low, high⟩ := near
  have shifted : (days + 719468).toInt = days.toInt + 719468 :=
    toInt_add (by rw [show (719468 : Int64).toInt = 719468 from rfl]; omega)
  have bounds : era days.toInt = (days.toInt + 719468) / 146097 := rfl
  have product : (eraOf * 146097).toInt = era days.toInt * 146097 := by
    rw [← is_era]
    exact toInt_mul (by rw [is_era, show (146097 : Int64).toInt = 146097 from rfl]; omega)
  rw [toInt_sub (by rw [product, shifted]; omega), product, shifted]
  unfold dayOfEra
  omega

theorem civilYear_toInt {days yearOf eraOf carry : Int64} (near : NearDay days)
    (is_year : yearOf.toInt = yearOfEra days.toInt) (is_era : eraOf.toInt = era days.toInt)
    (is_carry : carry.toInt = if civilMonth days.toInt ≤ 2 then 1 else 0) :
    (yearOf + eraOf * 400 + carry).toInt = civilYear days.toInt := by
  obtain ⟨low, high⟩ := near
  have year_mem := yearOfEra_mem days.toInt
  have bounds : era days.toInt = (days.toInt + 719468) / 146097 := rfl
  have product : (eraOf * 400).toInt = era days.toInt * 400 := by
    rw [← is_era]
    exact toInt_mul (by rw [is_era, show (400 : Int64).toInt = 400 from rfl]; omega)
  have march : (yearOf + eraOf * 400).toInt = yearOfEra days.toInt + era days.toInt * 400 := by
    rw [toInt_add (by rw [product, is_year]; omega), product, is_year]
  have carry_mem : 0 ≤ carry.toInt ∧ carry.toInt ≤ 1 := by
    rw [is_carry]
    split <;> omega
  rw [civilYear, ← is_carry, ← march]
  exact toInt_add (by rw [march]; omega)

theorem civilFromDays_cases {days : Int64} (near : NearDay days) :
    (civilFromDays days = none ∧ ¬ CivilYearFits days.toInt) ∨
      ∃ civil, civilFromDays days = some civil ∧ CivilYearFits days.toInt ∧
        civil.Reads (Date.ofDayNumber days.toInt) := by
  unfold civilFromDays
  extract_lets shifted era dayOfEra yearOfEra marchYear dayOfYear monthPrime day month year
  have era_eq : era.toInt = Calendar.era days.toInt := era_toInt near
  have doe_mem := dayOfEra_mem days.toInt
  have yoe_mem := yearOfEra_mem days.toInt
  have doy_mem := dayOfYear_mem days.toInt
  have mp_mem := monthPrime_mem days.toInt
  have dayOfEra_eq : (dayOfEra.toNat : Int) = Calendar.dayOfEra days.toInt := by
    have exact : (shifted - era * 146097).toInt = _ := dayOfEra_toInt near era_eq
    rw [← exact]
    exact toUInt32_toNat (by omega)
  have yearOfEra_eq : (yearOfEra.toNat : Int) = Calendar.yearOfEra days.toInt := by
    simp only [Calendar.yearOfEra, withoutLeapDays, ← dayOfEra_eq] at *
    simp (disch := omega) only [yearOfEra, UInt32.toNat_div, UInt32.toNat_sub, UInt32.toNat_add,
      UInt32.reduceToNat, sub_mod_of_le, Nat.mod_eq_of_lt]
    omega
  have dayOfYear_eq : (dayOfYear.toNat : Int) = Calendar.dayOfYear days.toInt := by
    simp only [Calendar.dayOfYear, eraYearStart, ← yearOfEra_eq, ← dayOfEra_eq] at *
    simp (disch := omega) only [dayOfYear, UInt32.toNat_div, UInt32.toNat_sub, UInt32.toNat_add,
      UInt32.toNat_mul, UInt32.reduceToNat, sub_mod_of_le, Nat.mod_eq_of_lt]
    omega
  have monthPrime_eq : (monthPrime.toNat : Int) = Calendar.monthPrime days.toInt := by
    simp only [Calendar.monthPrime, ← dayOfYear_eq] at *
    simp (disch := omega) only [monthPrime, UInt32.toNat_div, UInt32.toNat_add, UInt32.toNat_mul,
      UInt32.reduceToNat, Nat.mod_eq_of_lt]
    omega
  have day_eq : (day.toNat : Int) = civilDay days.toInt := by
    have := civilDay_mem days.toInt
    simp only [civilDay, ← monthPrime_eq, ← dayOfYear_eq] at *
    simp (disch := omega) only [day, UInt32.toNat_div, UInt32.toNat_add, UInt32.toNat_sub,
      UInt32.toNat_mul, UInt32.reduceToNat, sub_mod_of_le, Nat.mod_eq_of_lt]
    omega
  have month_eq : (month.toNat : Int) = civilMonth days.toInt := by
    simp only [civilMonth, ← monthPrime_eq] at *
    simp only [month, UInt32.lt_iff_toNat_lt, UInt32.reduceToNat]
    split
    · rw [if_pos (by omega)]
      simp only [UInt32.toNat_add, UInt32.reduceToNat]
      omega
    · rw [if_neg (by omega)]
      simp only [UInt32.toNat_sub, UInt32.reduceToNat]
      omega
  have year_eq : year.toInt = civilYear days.toInt := by
    refine civilYear_toInt near ?_ era_eq ?_
    · rw [← yearOfEra_eq]
      exact toInt64_toInt_uint32 yearOfEra
    · simp only [UInt32.le_iff_toNat_le, UInt32.reduceToNat, ← month_eq]
      split
      · rw [if_pos (by omega)]
        rfl
      · rw [if_neg (by omega)]
        rfl
  have out_of_range : (year < Int32.minValue.toInt64 || year > Int32.maxValue.toInt64) = true ↔
      ¬ CivilYearFits days.toInt := by
    simp only [Bool.or_eq_true, decide_eq_true_eq, gt_iff_lt, Int64.lt_iff_toInt_lt, year_eq,
      CivilYearFits, Date.ofDayNumber, show Int32.minValue.toInt64.toInt = -2 ^ 31 from rfl,
      show Int32.maxValue.toInt64.toInt = 2 ^ 31 - 1 from rfl]
    omega
  by_cases fits : CivilYearFits days.toInt
  · rw [if_neg (by simpa only [out_of_range] using not_not.mpr fits)]
    refine .inr ⟨_, rfl, fits, ?_, month_eq, day_eq⟩
    obtain ⟨lower, upper⟩ := fits
    show year.toInt32.toInt = civilYear days.toInt
    rw [Int64.toInt_toInt32, year_eq, Int.bmod_def]
    simp only [Date.ofDayNumber] at lower upper
    omega
  · rw [if_pos (out_of_range.mpr fits)]
    exact .inl ⟨rfl, fits⟩

/-- Dates with a representable year are seconds away from no end of the 64-bit range. -/
theorem CivilYearFits.bounds {days : Int} (fits : CivilYearFits days) :
    -10 ^ 12 ≤ days ∧ days ≤ 10 ^ 12 := by
  have era_mem := yearOfEra_mem days
  have bounds : era days = (days + 719468) / 146097 := rfl
  obtain ⟨low, high⟩ := fits
  simp only [Date.ofDayNumber, civilYear] at low high
  split at low <;> omega

end DawnDock
