import DawnDock.App.IcsImport
import DawnDock.App.Responses
import DawnDock.Library.RecurrenceRule
import Mathlib.Tactic.IntervalCases

/-!
What `_parseDtstart` reads.

A value is the date it spells, alone or with a wall time to the minute (`StartsAt`), and the
importer reads that date's weekday and that wall time (`parseDtstart_reads`). The closed
formula for the weekday agrees with the calendar (`isoWeekday_eq`).
-/

namespace DawnDock.App.Ics

open Calendar (Date weekday)

/-! ### Decimal fields -/

/-- The last digits of a number, as many as the width says. -/
def decimalDigits : Nat → Nat → DartString
  | 0, _ => []
  | width + 1, n => decimalDigits width (n / 10) ++ [UInt16.ofNat (0x30 + n % 10)]

example : decimalDigits 4 30 = utf16 "0030" := by decide

theorem toNat_of_digit {unit : UInt16} (is_digit : digit unit = true) :
    0x30 ≤ unit.toNat ∧ unit.toNat ≤ 0x39 := by
  rw [digit, Bool.and_eq_true, decide_eq_true_eq, decide_eq_true_eq] at is_digit
  exact ⟨UInt16.le_iff_toNat_le.mp is_digit.1, UInt16.le_iff_toNat_le.mp is_digit.2⟩

/-- Digits spell the number they are parsed to. -/
theorem decimalDigits_parseDigits {text : DartString} (digits : ∀ unit ∈ text, digit unit = true) :
    decimalDigits text.length (parseDigits text) = text := by
  induction text using List.reverseRecOn with
  | nil => rfl
  | append_singleton text last ih =>
      have range := toNat_of_digit (digits last (by simp))
      have before := ih fun unit mem => digits unit (List.mem_append_left _ mem)
      have value : parseDigits (text ++ [last]) =
          parseDigits text * 10 + (last.toNat - 0x30) := by
        rw [parseDigits, List.foldl_append]
        rfl
      have front : parseDigits (text ++ [last]) / 10 = parseDigits text := by omega
      have unit : 0x30 + parseDigits (text ++ [last]) % 10 = last.toNat := by omega
      rw [List.length_append, List.length_singleton, decimalDigits, front, before, unit,
        UInt16.ofNat_toNat]

section Shape

variable {first second : List (UInt16 → Bool)} {text : DartString}

theorem of_matchesEach_append (matched : matchesEach (first ++ second) text = true) :
    ∃ before behind, text = before ++ behind ∧ matchesEach first before = true ∧
      matchesEach second behind = true := by
  induction first generalizing text with
  | nil => exact ⟨[], text, rfl, rfl, matched⟩
  | cons matching first ih =>
      cases text with
      | nil => cases matched
      | cons unit rest =>
          rw [List.cons_append, matchesEach, Bool.and_eq_true] at matched
          obtain ⟨before, behind, rfl, front, back⟩ := ih matched.2
          refine ⟨unit :: before, behind, rfl, ?_, back⟩
          rw [matchesEach, matched.1, front]
          rfl

theorem spells_of_digits {width : Nat}
    (matched : matchesEach (List.replicate width digit) text = true) :
    text.length = width ∧ decimalDigits width (parseDigits text) = text := by
  have length := length_of_matchesEach matched
  rw [List.length_replicate] at length
  have digits : ∀ unit ∈ text, digit unit = true := by
    refine forall_of_matchesEach ?_ matched
    intro matching mem unit
    rw [List.eq_of_mem_replicate mem]
    exact id
  refine ⟨length, ?_⟩
  rw [← length]
  exact decimalDigits_parseDigits digits

end Shape

/-! ### Values -/

/-- A date as a value spells it. -/
def dateDigits (date : Date) : DartString :=
  decimalDigits 4 date.year.toNat ++ decimalDigits 2 date.month.toNat ++
    decimalDigits 2 date.day.toNat

/-- The value of a `DTSTART` spells a date with a wall time; a date alone starts at
midnight. -/
inductive StartsAt (value : DartString) (date : Date) : Nat → Nat → Prop
  | date (spelled : value = dateDigits date) : StartsAt value date 0 0
  | time {hour minute : Nat} {mark : UInt16} {zone : DartString} (in_day : hour < 24)
      (in_hour : minute < 60) (is_mark : mark = 0x54 ∨ mark = 0x74)
      (is_zone : zone ∈ [[], [0x5a], [0x7a]])
      (spelled : value = dateDigits date ++ mark :: decimalDigits 2 hour ++
        decimalDigits 2 minute ++ decimalDigits 2 0 ++ zone) :
      StartsAt value date hour minute

/-- A field of a text. -/
theorem substring_eq {text before field behind : DartString} {start finish : Nat}
    (cut : text = before ++ (field ++ behind)) (starts : before.length = start)
    (ends : start + field.length = finish) : substring text start finish = field := by
  subst cut starts ends
  rw [substring, List.drop_left, Nat.add_sub_cancel_left, List.take_left]

theorem dateMatch_spells {value : DartString} {year month day : Nat}
    (matched : dateMatch value = some (year, month, day)) :
    value = decimalDigits 4 year ++ decimalDigits 2 month ++ decimalDigits 2 day := by
  unfold dateMatch at matched
  split at matched
  · rename_i shaped
    obtain ⟨y, rest, cut, years, shaped⟩ :=
      @of_matchesEach_append (List.replicate 4 digit) (List.replicate 4 digit) _ shaped
    obtain ⟨m, d, rfl, months, days⟩ :=
      @of_matchesEach_append (List.replicate 2 digit) (List.replicate 2 digit) _ shaped
    obtain ⟨y_length, y_digits⟩ := spells_of_digits years
    obtain ⟨m_length, m_digits⟩ := spells_of_digits months
    obtain ⟨d_length, d_digits⟩ := spells_of_digits days
    have read_year : substring value 0 4 = y := @substring_eq value [] y _ 0 4 cut rfl (by omega)
    have read_month : substring value 4 6 = m := substring_eq cut y_length (by omega)
    have read_day : substring value 6 8 = d := by
      apply @substring_eq value (y ++ m) d [] 6 8
      · rw [cut, List.append_nil, List.append_assoc]
      · rw [List.length_append, y_length, m_length]
      · omega
    rw [read_year, read_month, read_day] at matched
    cases matched
    rw [y_digits, m_digits, d_digits, List.append_assoc]
    exact cut
  · cases matched

/-- The pattern of a date-time with its groups. -/
theorem dateTimeMatch_spells {value : DartString} {time : DateTimeMatch}
    (matched : dateTimeMatch value = some time) :
    ∃ mark zone, (mark = 0x54 ∨ mark = 0x74) ∧ zone ∈ [[], [0x5a], [0x7a]] ∧
      value = decimalDigits 4 time.year ++ decimalDigits 2 time.month ++
        decimalDigits 2 time.day ++ mark :: decimalDigits 2 time.hour ++
        decimalDigits 2 time.minute ++ decimalDigits 2 time.seconds ++ zone := by
  unfold dateTimeMatch at matched
  extract_lets zone at matched
  split at matched
  · rename_i shaped
    rw [Bool.and_eq_true] at shaped
    obtain ⟨shaped, zoned⟩ := shaped
    obtain ⟨y, rest, front, years, shaped⟩ := @of_matchesEach_append (List.replicate 4 digit)
      (_ :: _ :: _ :: _ :: _ :: List.replicate 6 digit) _ shaped
    obtain ⟨m, rest, rfl, months, shaped⟩ := @of_matchesEach_append (List.replicate 2 digit)
      (_ :: _ :: _ :: List.replicate 6 digit) _ shaped
    obtain ⟨d, rest, rfl, days, shaped⟩ := @of_matchesEach_append (List.replicate 2 digit)
      (_ :: List.replicate 6 digit) _ shaped
    obtain ⟨mark, rest, rfl, marked, shaped⟩ := of_matchesEach_cons shaped
    obtain ⟨h, rest, rfl, hours, shaped⟩ :=
      @of_matchesEach_append (List.replicate 2 digit) (List.replicate 4 digit) _ shaped
    obtain ⟨n, s, rfl, minutes, seconds⟩ :=
      @of_matchesEach_append (List.replicate 2 digit) (List.replicate 2 digit) _ shaped
    obtain ⟨y_length, y_digits⟩ := spells_of_digits years
    obtain ⟨m_length, m_digits⟩ := spells_of_digits months
    obtain ⟨d_length, d_digits⟩ := spells_of_digits days
    obtain ⟨h_length, h_digits⟩ := spells_of_digits hours
    obtain ⟨n_length, n_digits⟩ := spells_of_digits minutes
    obtain ⟨s_length, s_digits⟩ := spells_of_digits seconds
    have cut : value = y ++ m ++ d ++ mark :: h ++ n ++ s ++ zone := by
      conv_lhs => rw [← List.take_append_drop 15 value, front]
      simp only [List.append_assoc, List.cons_append]
      rfl
    have read_year : substring value 0 4 = y := by
      apply @substring_eq value [] y (m ++ (d ++ mark :: (h ++ (n ++ (s ++ zone)))))
      · simpa only [List.append_assoc, List.cons_append, List.nil_append] using cut
      · rfl
      · omega
    have read_month : substring value 4 6 = m := by
      apply @substring_eq value y m (d ++ mark :: (h ++ (n ++ (s ++ zone))))
      · simpa only [List.append_assoc, List.cons_append] using cut
      · exact y_length
      · omega
    have read_day : substring value 6 8 = d := by
      apply @substring_eq value (y ++ m) d (mark :: (h ++ (n ++ (s ++ zone))))
      · simpa only [List.append_assoc, List.cons_append] using cut
      · rw [List.length_append, y_length, m_length]
      · omega
    have read_hour : substring value 9 11 = h := by
      apply @substring_eq value (y ++ m ++ d ++ [mark]) h (n ++ (s ++ zone))
      · simpa only [List.append_assoc, List.cons_append, List.nil_append] using cut
      · simp only [List.length_append, List.length_singleton, y_length, m_length, d_length]
      · omega
    have read_minute : substring value 11 13 = n := by
      apply @substring_eq value (y ++ m ++ d ++ mark :: h) n (s ++ zone)
      · simpa only [List.append_assoc, List.cons_append] using cut
      · simp only [List.length_append, List.length_cons, y_length, m_length, d_length, h_length]
      · omega
    have read_seconds : substring value 13 15 = s := by
      apply @substring_eq value (y ++ m ++ d ++ mark :: h ++ n) s zone
      · simpa only [List.append_assoc, List.cons_append] using cut
      · simp only [List.length_append, List.length_cons, y_length, m_length, d_length, h_length,
          n_length]
      · omega
    rw [read_year, read_month, read_day, read_hour, read_minute, read_seconds] at matched
    cases matched
    refine ⟨mark, zone, ?_, ?_, ?_⟩
    · simpa using marked
    · simpa [or_assoc] using zoned
    · rw [y_digits, m_digits, d_digits, h_digits, n_digits, s_digits]
      exact cut
  · cases matched

/-! ### Weekdays -/

theorem date_of_validGregorian {year month day : Nat} (valid : validGregorian year month day = true) :
    (1 ≤ year ∧ 1 ≤ month ∧ month ≤ 12) ∧
      ∃ date : Date, date.year = year ∧ date.month = month ∧ date.day = day := by
  unfold validGregorian at valid
  split at valid
  · cases valid
  rename_i ranges
  simp only [Bool.or_eq_true, decide_eq_true_eq, not_or, Nat.not_lt] at ranges
  obtain ⟨⟨⟨from_one, first⟩, last⟩, start⟩ := ranges
  have month_mem : 1 ≤ (month : Int) ∧ (month : Int) ≤ 12 := by omega
  have leap : ((year % 4 = 0 ∧ year % 100 ≠ 0) ∨ year % 400 = 0) ↔ Calendar.leap year := by
    unfold Calendar.leap
    omega
  have day_le : (day : Int) ≤ Calendar.monthLength year month := by
    rw [decide_eq_true_eq] at valid
    simp only [leap] at valid
    clear month_mem leap
    unfold Calendar.monthLength
    by_cases long : Calendar.leap year
    all_goals
      simp only [long, and_true, and_false, if_true, if_false] at valid ⊢
      interval_cases month <;> simp at valid ⊢ <;> omega
  exact ⟨⟨from_one, first, last⟩, ⟨year, month, day, month_mem, by omega, day_le⟩, rfl, rfl, rfl⟩

/-- The years of the closed formula, with the weeks of every year taken out. -/
theorem leapDays_eq (y : Nat) : ((y + y / 4 - y / 100 + y / 400 : Nat) : Int) =
    Calendar.daysBeforeYear (y + 1) - 364 * y := by
  unfold Calendar.daysBeforeYear
  omega

/-- The closed formula for the weekday agrees with the calendar, month by month. -/
theorem isoWeekday_eq {year month : Nat} (day : Nat) (positive : 1 ≤ year) (first : 1 ≤ month)
    (last : month ≤ 12) :
    (isoWeekday year month day : Int) =
      weekday (Calendar.daysBeforeYear year + Calendar.daysBeforeMonth year month + (day - 1) -
        719162) + 1 := by
  obtain ⟨year, rfl⟩ := Nat.exists_eq_add_of_le' positive
  have before := leapDays_eq year
  have within := leapDays_eq (year + 1)
  have next := Calendar.daysBeforeYear_succ (year + 1)
  unfold isoWeekday weekday Calendar.daysBeforeMonth
  rw [Nat.add_sub_cancel]
  by_cases early : month < 3
  all_goals
    simp only [early, if_true, if_false]
    generalize year + year / 4 - year / 100 + year / 400 = earlier at *
    generalize year + 1 + (year + 1) / 4 - (year + 1) / 100 + (year + 1) / 400 = later at *
    push_cast at *
    generalize Calendar.daysBeforeYear (year + 1) = start at *
    generalize Calendar.daysBeforeYear (year + 1 + 1) = finish at *
    by_cases long : Calendar.leap (year + 1)
    all_goals
      simp only [long, if_true, if_false] at next ⊢
      interval_cases month <;> simp <;> split_ifs <;> omega

/-- A start that passes the calendar checks has a date, whose weekday it carries. -/
theorem startInfo_some {notes after : List Note} {timezone : DartString}
    {year month day hour minute : Nat} {start : StartInfo}
    (passed : startInfo notes timezone year month day hour minute = (after, some start)) :
    after = notes ∧ start.timezone = timezone ∧ start.hour = hour ∧ start.minute = minute ∧
      hour < 24 ∧ minute < 60 ∧ ∃ date : Date,
        dateDigits date = decimalDigits 4 year ++ decimalDigits 2 month ++ decimalDigits 2 day ∧
          start.weekdayIso = weekday date.dayNumber + 1 := by
  unfold startInfo at passed
  split at passed
  · cases passed
  rename_i ranges
  cases passed
  simp only [Bool.or_eq_true, decide_eq_true_eq, not_or, Bool.not_eq_true, Bool.not_eq_false',
    Nat.not_lt] at ranges
  obtain ⟨⟨valid, hours⟩, minutes⟩ := ranges
  obtain ⟨⟨positive, first, last⟩, date, year_eq, month_eq, day_eq⟩ := date_of_validGregorian valid
  refine ⟨rfl, rfl, rfl, rfl, by omega, by omega, date, ?_, ?_⟩
  · rw [dateDigits, year_eq, month_eq, day_eq]
    rfl
  · rw [Date.dayNumber, year_eq, month_eq, day_eq]
    exact isoWeekday_eq day positive first last

section Case

variable {toUpperCase : DartString → DartString}

/-- The property names the zone, and it is not UTC. -/
def NamesZone (toUpperCase : DartString → DartString) (prop : Property) (timezone : DartString) :
    Prop :=
  ∃ tzid, prop.param (utf16 "TZID") = some tzid ∧ isUtcDesignator toUpperCase tzid = false ∧
    timezone = trim tzid

/-- The notices of a zone that the event does not name. -/
def zoneCodes : List NoticeCode := [.floatingLocalTime, .utcWallTime, .allDayDefaultTime]

theorem zoneOfTime_some {prop : Property} {zulu : Bool} {notes : List Note} {timezone : DartString}
    (chosen : zoneOfTime toUpperCase (prop.param (utf16 "TZID")) zulu = (notes, some timezone)) :
    NamesZone toUpperCase prop timezone ∨ ∃ note ∈ notes, note.code ∈ zoneCodes := by
  unfold zoneOfTime at chosen
  cases named : prop.param (utf16 "TZID") with
  | none =>
      rw [named] at chosen
      right
      dsimp only at chosen
      split at chosen
      · cases chosen
        exact ⟨_, List.mem_cons_self, by simp [zoneCodes]⟩
      · cases chosen
        exact ⟨_, List.mem_cons_self, by simp [zoneCodes]⟩
  | some tzid =>
      rw [named] at chosen
      dsimp only at chosen
      split at chosen
      · cases chosen
      split at chosen
      · cases chosen
        exact .inr ⟨_, List.mem_cons_self, by simp [zoneCodes]⟩
      rename_i not_utc
      rw [Bool.or_eq_true, not_or, Bool.not_eq_true, Bool.not_eq_true] at not_utc
      split at chosen
      · cases chosen
      split at chosen
      · cases chosen
      · cases chosen
        exact .inl ⟨tzid, named, not_utc.2, rfl⟩

/-- A date value starts at midnight, in a zone it cannot name. -/
theorem dateStart_reads {prop : Property} {notes : List Note} {start : StartInfo}
    {year month day : Nat} (dated : dateMatch (trim prop.rawValue) = some (year, month, day))
    (passed : startInfo [{ code := .allDayDefaultTime }] kIcsImportDefaultTimezone year month day
      0 0 = (notes, some start)) :
    ∃ date, StartsAt (trim prop.rawValue) date start.hour start.minute ∧
      start.hour < 24 ∧ start.minute < 60 ∧ start.weekdayIso = weekday date.dayNumber + 1 ∧
      (NamesZone toUpperCase prop start.timezone ∨ ∃ note ∈ notes, note.code ∈ zoneCodes) := by
  obtain ⟨rfl, -, hour, minute, -, -, date, spelled, iso⟩ := startInfo_some passed
  rw [hour, minute]
  refine ⟨date, .date ?_, by omega, by omega, iso, .inr ?_⟩
  · rw [spelled]
    exact dateMatch_spells dated
  · exact ⟨_, List.mem_cons_self, by simp [zoneCodes]⟩

/-- What the importer reads from a `DTSTART`. -/
theorem parseDtstart_reads {dtstart : Option Property} {notes : List Note} {start : StartInfo}
    (parsed : parseDtstart toUpperCase dtstart = (notes, some start)) :
    ∃ prop, dtstart = some prop ∧ ∃ date,
      StartsAt (trim prop.rawValue) date start.hour start.minute ∧
      start.hour < 24 ∧ start.minute < 60 ∧ start.weekdayIso = weekday date.dayNumber + 1 ∧
      (NamesZone toUpperCase prop start.timezone ∨ ∃ note ∈ notes, note.code ∈ zoneCodes) := by
  unfold parseDtstart at parsed
  cases dtstart with
  | none => cases parsed
  | some prop =>
      refine ⟨prop, rfl, ?_⟩
      dsimp only at parsed
      split at parsed
      · rename_i time _ timed _
        split at parsed
        · cases parsed
        split at parsed
        · cases parsed
        rename_i whole
        rw [not_not] at whole
        split at parsed
        · cases parsed
        rename_i zoneNotes timezone zoned
        obtain ⟨rfl, zone, hour, minute, in_day, in_hour, date, spelled, iso⟩ :=
          startInfo_some parsed
        obtain ⟨mark, suffix, is_mark, is_zone, cut⟩ := dateTimeMatch_spells timed
        rw [hour, minute, zone]
        refine ⟨date, .time in_day in_hour is_mark is_zone ?_, in_day, in_hour, iso,
          zoneOfTime_some zoned⟩
        rw [spelled, ← whole]
        exact cut
      · rename_i dated
        split at parsed
        · cases parsed
        · exact dateStart_reads dated parsed
      · rename_i dated _ _
        split at parsed
        · cases parsed
        · exact dateStart_reads dated parsed
      · cases parsed

end Case

end DawnDock.App.Ics
