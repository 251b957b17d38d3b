import DawnDock.App.DateTexts
import Mathlib.Data.List.Induction
import Mathlib.Tactic.Ring

/-!
`tryParse` reads back what `toIso8601String` writes of an instant in UTC
(`tryParse_toIso8601String`).

`Prefers` is the first match of a part of the pattern. The preferred match of a sequence is
made of the preferred matches of its parts, so that none of the backtracking shows where each
part prefers what was written.
-/

namespace DawnDock.App

namespace DateTime

/-! ### Preferred matches -/

namespace Matcher

variable {α β : Type} {text rest behind : DartString} {a : α} {b : β}

/-- What the matcher tries first. -/
def Prefers (matcher : Matcher α) (text : DartString) (value : α) (rest : DartString) : Prop :=
  (matcher text).head? = some (value, rest)

/-- The first match is the one that the expression takes. -/
theorem prefers_iff {matcher : Matcher α} :
    Prefers matcher text a rest ↔ ∃ others, matcher text = (a, rest) :: others :=
  List.head?_eq_some_iff

theorem prefers_result (a : α) (text : DartString) : Prefers (result a) text a text := rfl

theorem prefers_unit {allowed : UInt16 → Bool} {u : UInt16} (allows : allowed u = true) :
    Prefers (unit allowed) (u :: rest) u rest := by
  rw [Prefers, unit, if_pos allows]
  rfl

theorem Prefers.of_eq {matcher : Matcher α} {a' : α} (matched : Prefers matcher text a rest)
    (same : a = a') : Prefers matcher text a' rest :=
  same ▸ matched

/-- If the first parts agree, the match goes on behind them. -/
theorem Prefers.andThen {first : Matcher α} {second : α → Matcher β}
    (head : Prefers first text a rest) (tail : Prefers (second a) rest b behind) :
    Prefers (andThen first second) text b behind := by
  obtain ⟨firsts, head⟩ := prefers_iff.mp head
  obtain ⟨seconds, tail⟩ := prefers_iff.mp tail
  rw [Prefers, Matcher.andThen, head, List.flatMap_cons, tail]
  rfl

theorem Prefers.optional {matcher : Matcher α} (matched : Prefers matcher text a rest) :
    Prefers (optional matcher) text (some a) rest := by
  obtain ⟨others, matched⟩ := prefers_iff.mp matched
  rw [Prefers, Matcher.optional, matched]
  rfl

theorem prefers_none {matcher : Matcher α} (unmatched : matcher text = []) :
    Prefers (Matcher.optional matcher) text none text := by
  rw [Prefers, Matcher.optional, unmatched]
  rfl

/-- The first alternative is taken if it matches. -/
theorem Prefers.either {first : Matcher α} (matched : Prefers first text a rest)
    (second : Matcher α) : Prefers (either first second) text a rest := by
  obtain ⟨others, matched⟩ := prefers_iff.mp matched
  rw [Prefers, Matcher.either, matched]
  rfl

/-- A unit that is not there is passed over. -/
theorem prefers_absent {allowed : UInt16 → Bool} (absent : ∀ u ∈ text.head?, allowed u = false) :
    Prefers (Matcher.optional (unit allowed)) text none text := by
  apply prefers_none
  cases text with
  | nil => rfl
  | cons u rest =>
      rw [unit, absent u rfl]
      rfl

/-- The digits up to something else, among longer counts that do not fit. -/
theorem prefers_digits {counts larger others : List Nat} {number : DartString}
    (digits : ∀ u ∈ number, digit u = true) (split : counts = larger ++ number.length :: others)
    (more : ∀ count ∈ larger, number.length < count ∧ ∀ u ∈ rest.head?, digit u = false) :
    Prefers (Matcher.digits counts) (number ++ rest) number rest := by
  have none : larger.filter (fun count => count ≤ (number ++ rest).length &&
      ((number ++ rest).take count).all digit) = [] := by
    rw [List.filter_eq_nil_iff]
    intro count mem fits
    obtain ⟨longer, stops⟩ := more count mem
    rw [Bool.and_eq_true, decide_eq_true_eq, List.all_eq_true] at fits
    cases rest with
    | nil =>
        rw [List.append_nil] at fits
        exact Nat.not_lt.mpr fits.1 longer
    | cons u rest =>
        have reached : u ∈ (number ++ u :: rest).take count := by
          rw [List.append_cons]
          apply List.mem_of_getElem? (i := number.length)
          rw [List.getElem?_take_of_lt longer, List.getElem?_append_left (by simp)]
          exact List.getElem?_concat_length
        exact absurd (fits.2 u reached) (by rw [stops u rfl]; exact Bool.false_ne_true)
  have fits : (decide (number.length ≤ (number ++ rest).length) &&
      ((number ++ rest).take number.length).all digit) = true := by
    rw [Bool.and_eq_true, decide_eq_true_eq, List.take_left, List.all_eq_true]
    exact ⟨by simp, digits⟩
  rw [Prefers, Matcher.digits, split, List.filter_append, none, List.nil_append,
    List.filter_cons, if_pos fits]
  simp

/-- A run of digits is taken to its end. -/
theorem prefers_someDigits {number : DartString} (digits : ∀ u ∈ number, digit u = true)
    (nonempty : number ≠ []) (stops : ∀ u ∈ rest.head?, digit u = false) :
    Prefers someDigits (number ++ rest) number rest := by
  obtain ⟨count, length⟩ : ∃ count, number.length = count + 1 :=
    Nat.exists_eq_succ_of_ne_zero fun none => nonempty (List.length_eq_zero_iff.mp none)
  have total : (number ++ rest).length = rest.length + (count + 1) := by
    rw [List.length_append, length, Nat.add_comm]
  have split : ((List.range (number ++ rest).length).map fun index =>
      (number ++ rest).length - index) =
      ((List.range rest.length).map fun index => (number ++ rest).length - index) ++
        number.length :: (List.range count).map fun index =>
          (number ++ rest).length - (rest.length + (index + 1)) := by
    rw [total, List.range_add, List.range_succ_eq_map, length]
    simp [Function.comp_def]
  rw [Prefers, someDigits]
  refine prefers_digits digits split ?_
  intro larger mem
  obtain ⟨index, listed, rfl⟩ := List.mem_map.mp mem
  have inside := List.mem_range.mp listed
  exact ⟨by omega, stops⟩

end Matcher

/-! ### Numbers -/

/-- A number written in so many digits. -/
structure Writes (number : DartString) (width : Nat) (value : Int) : Prop where
  digits : ∀ u ∈ number, digit u = true
  length : number.length = width
  reads : (parseDigits number : Int) = value

/-- The digits in front count for their place. -/
theorem parseDigits_append (front back : DartString) :
    parseDigits (front ++ back) = parseDigits front * 10 ^ back.length + parseDigits back := by
  have shifted (start : Nat) : back.foldl (fun value unit => value * 10 + (unit.toNat - 0x30)) start =
      start * 10 ^ back.length + parseDigits back := by
    unfold parseDigits
    induction back using List.reverseRecOn with
    | nil => simp
    | append_singleton back last ih =>
        simp only [List.foldl_concat, ih, List.length_append, List.length_singleton, Nat.pow_succ]
        ring
  rw [parseDigits, List.foldl_append]
  exact shifted _

/-- Numbers side by side are one number. -/
theorem Writes.append {front back : DartString} {width width' : Nat} {value value' : Int}
    (first : Writes front width value) (second : Writes back width' value') :
    Writes (front ++ back) (width + width') (value * 10 ^ width' + value') where
  digits u mem := (List.mem_append.mp mem).elim (first.digits u) (second.digits u)
  length := by rw [List.length_append, first.length, second.length]
  reads := by
    rw [parseDigits_append, second.length]
    push_cast
    rw [first.reads, second.reads]

theorem writes_zeros (width : Nat) : Writes (List.replicate width 0x30) width 0 where
  digits u mem := by
    rw [List.eq_of_mem_replicate mem]
    rfl
  length := List.length_replicate
  reads := by
    induction width with
    | zero => rfl
    | succ width ih =>
        have zero : parseDigits [0x30] = 0 := rfl
        rw [List.replicate_succ', parseDigits_append, zero, Int.natCast_eq_zero.mp ih]
        rfl

theorem writes_toDigits (value : Nat) : Writes (asciiUnits (Nat.toDigits 10 value))
    (Nat.toDigits 10 value).length value := by
  have bounds : ∀ c ∈ Nat.toDigits 10 value, 48 ≤ c.toNat ∧ c.toNat ≤ 57 := by
    intro c mem
    have isDigit := Nat.isDigit_of_mem_toDigits (by omega) (by omega) mem
    rw [Char.isDigit, Bool.and_eq_true, decide_eq_true_eq, decide_eq_true_eq] at isDigit
    exact isDigit
  have units : ∀ c ∈ Nat.toDigits 10 value, (UInt16.ofNat c.toNat).toNat = c.toNat := by
    intro c mem
    have bound := bounds c mem
    rw [UInt16.toNat_ofNat', Nat.mod_eq_of_lt (by omega)]
  constructor
  · intro u mem
    obtain ⟨c, listed, rfl⟩ := List.mem_map.mp mem
    rw [digit, Bool.and_eq_true, decide_eq_true_eq, decide_eq_true_eq, UInt16.le_iff_toNat_le,
      UInt16.le_iff_toNat_le, units c listed]
    exact bounds c listed
  · rw [asciiUnits, List.length_map]
  · have read : parseDigits (asciiUnits (Nat.toDigits 10 value)) = value := by
      rw [parseDigits, asciiUnits, List.foldl_map]
      refine Eq.trans ?_ (Nat.ofDigitChars_ten_toDigits (n := value))
      rw [Nat.ofDigitChars_eq_foldl]
      apply List.foldl_ext
      intro sofar c listed
      rw [units c listed, Nat.mul_comm]
      rfl
    rw [read]

/-- Padding writes a number in its width, if it fits. -/
theorem writes_padded {width : Nat} {value : Int} (positive : 0 < width) (nonneg : 0 ≤ value)
    (fits : value < 10 ^ width) : Writes (padded width value) width value := by
  obtain ⟨value, rfl⟩ := Int.eq_ofNat_of_zero_le nonneg
  have short : (Nat.toDigits 10 value).length ≤ width :=
    (Nat.length_toDigits_le_iff (by omega) positive).mpr (by exact_mod_cast fits)
  have text : intText (value : Int) = asciiUnits (Nat.toDigits 10 value) := by
    rw [intText, if_neg (Int.not_lt.mpr nonneg), Int.natAbs_natCast]
  have written := (writes_zeros (width - (Nat.toDigits 10 value).length)).append
    (writes_toDigits value)
  rw [Int.zero_mul, Int.zero_add, Nat.sub_add_cancel short] at written
  rw [padded, text, (writes_toDigits value).length]
  exact written

/-! ### Fields -/

section Fields

variable (instant : DateTime)

/-- The time of day is within a day. -/
theorem timeOfDay_mem : 0 ≤ instant.timeOfDay ∧ instant.timeOfDay < 86400000000 :=
  ⟨Int.emod_nonneg _ (by omega), Int.emod_lt_of_pos _ (by omega)⟩

/-- The years of all instants have at most six digits. -/
theorem year_mem : -999999 ≤ instant.date.year ∧ instant.date.year ≤ 999999 := by
  have days : -100000000 ≤ instant.dayNumber ∧ instant.dayNumber ≤ 100000000 := by
    have lower := instant.lower
    have upper := instant.upper
    unfold kMaxMicroseconds at lower upper
    unfold dayNumber
    omega
  have counted : instant.date.dayNumber = instant.dayNumber := Calendar.dayNumber_ofDayNumber _
  obtain ⟨firstMonth, lastMonth⟩ := instant.date.month_mem
  obtain ⟨firstDay, lastDay⟩ := instant.date.day_mem
  have month : Calendar.monthLength instant.date.year instant.date.month ≤ 31 := by
    unfold Calendar.monthLength
    repeat' split
    all_goals omega
  have before : 0 ≤ Calendar.daysBeforeMonth instant.date.year instant.date.month ∧
      Calendar.daysBeforeMonth instant.date.year instant.date.month ≤ 366 := by
    unfold Calendar.daysBeforeMonth
    repeat' split
    all_goals omega
  unfold Calendar.Date.dayNumber Calendar.daysBeforeYear at counted
  omega

/-- The parts of an instant add up to it. -/
theorem microseconds_eq_parts : (((instant.dayNumber * 24 + instant.hour) * 60 + instant.minute) *
    60 + instant.second) * 1000000 + (instant.millisecond * 1000 + instant.microsecond) =
      instant.microsecondsSinceEpoch := by
  unfold dayNumber hour minute second millisecond microsecond timeOfDay
  omega

theorem writes_month : Writes (padded 2 instant.date.month) 2 instant.date.month := by
  obtain ⟨first, last⟩ := instant.date.month_mem
  exact writes_padded (by omega) (by omega) (by omega)

theorem writes_day : Writes (padded 2 instant.date.day) 2 instant.date.day := by
  obtain ⟨first, last⟩ := instant.date.day_mem
  have month : Calendar.monthLength instant.date.year instant.date.month ≤ 31 := by
    unfold Calendar.monthLength
    repeat' split
    all_goals omega
  exact writes_padded (by omega) (by omega) (by omega)

theorem writes_hour : Writes (padded 2 instant.hour) 2 instant.hour := by
  obtain ⟨first, last⟩ := timeOfDay_mem instant
  exact writes_padded (by omega) (by unfold hour; omega) (by unfold hour; omega)

theorem writes_minute : Writes (padded 2 instant.minute) 2 instant.minute :=
  writes_padded (by omega) (by unfold minute; omega) (by unfold minute; omega)

theorem writes_second : Writes (padded 2 instant.second) 2 instant.second :=
  writes_padded (by omega) (by unfold second; omega) (by unfold second; omega)

theorem writes_millisecond : Writes (padded 3 instant.millisecond) 3 instant.millisecond :=
  writes_padded (by omega) (by unfold millisecond; omega) (by unfold millisecond; omega)

theorem writes_microsecond : Writes (padded 3 instant.microsecond) 3 instant.microsecond :=
  writes_padded (by omega) (by unfold microsecond; omega) (by unfold microsecond; omega)

/-- What stands behind the seconds. -/
def fractionText : DartString :=
  padded 3 instant.millisecond ++
    if instant.microsecond = 0 then [] else padded 3 instant.microsecond

/-- The fraction is digits only. -/
theorem fractionText_digits : ∀ u ∈ instant.fractionText, digit u = true := by
  intro u mem
  rcases List.mem_append.mp mem with front | back
  · exact (writes_millisecond instant).digits u front
  · split at back
    · cases back
    · exact (writes_microsecond instant).digits u back

theorem fractionText_ne_nil : instant.fractionText ≠ [] := by
  have length := (writes_millisecond instant).length
  intro empty
  rw [(List.append_eq_nil_iff.mp empty).1] at length
  cases length

/-- Three digits are milliseconds, six are microseconds. -/
theorem parseMicroseconds_fractionText :
    parseMicroseconds instant.fractionText = instant.millisecond * 1000 + instant.microsecond := by
  unfold parseMicroseconds fractionText
  split
  · rename_i none
    have written := (writes_millisecond instant).append (writes_zeros 3)
    have six : (padded 3 instant.millisecond ++ [] ++ List.replicate 6 0x30).take 6 =
        padded 3 instant.millisecond ++ List.replicate 3 0x30 := by
      rw [List.append_nil, List.take_append, (writes_millisecond instant).length,
        List.take_of_length_le ((writes_millisecond instant).length.trans_le (by omega))]
      rfl
    rw [six, written.reads, none]
    omega
  · have written := (writes_millisecond instant).append (writes_microsecond instant)
    rw [List.take_left' written.length, written.reads]
    omega

end Fields

/-! ### Reading back -/

section Reading

open Matcher

variable {rest : DartString}

theorem digit_hyphen : ∀ u ∈ (0x2d :: rest).head?, digit u = false := by
  rintro u ⟨⟩
  rfl

/-- A year of four or six digits in front of a hyphen. -/
theorem prefers_yearDigits {number : DartString} {value : Int} {width : Nat}
    (written : Writes number width value) (four_or_six : width = 4 ∨ width = 6) :
    Prefers (digits [6, 5, 4]) (number ++ 0x2d :: rest) number (0x2d :: rest) := by
  rcases four_or_six with rfl | rfl
  · have split : [6, 5, 4] = [6, 5] ++ number.length :: [] := by
      rw [written.length]
      rfl
    refine prefers_digits written.digits split ?_
    intro count mem
    rw [written.length]
    refine ⟨?_, digit_hyphen⟩
    rcases List.mem_cons.mp mem with rfl | mem
    · omega
    · rw [List.mem_singleton.mp mem]
      omega
  · have split : [6, 5, 4] = [] ++ number.length :: [5, 4] := by
      rw [written.length]
      rfl
    exact prefers_digits written.digits split (List.forall_mem_nil _)

theorem prefers_signed {number : DartString} {value : Int} {width : Nat} {sign : UInt16}
    (signs : (sign == 0x2b || sign == 0x2d) = true) (written : Writes number width value)
    (four_or_six : width = 4 ∨ width = 6) :
    Prefers yearGroup (sign :: (number ++ 0x2d :: rest)) (if sign = 0x2d then -value else value)
      (0x2d :: rest) := by
  refine (prefers_unit signs).optional.andThen ((prefers_yearDigits written four_or_six).andThen ?_)
  rw [written.reads]
  simp only [Option.some.injEq]
  exact prefers_result _ _

theorem prefers_unsigned {number : DartString} {value : Int} {width : Nat}
    (written : Writes number width value) (four_or_six : width = 4 ∨ width = 6) :
    Prefers yearGroup (number ++ 0x2d :: rest) value (0x2d :: rest) := by
  refine (prefers_absent ?_).andThen ((prefers_yearDigits written four_or_six).andThen ?_)
  · intro u first
    cases number with
    | nil =>
        have none := written.length
        rw [List.length_nil] at none
        omega
    | cons v number =>
        cases first
        have isDigit := written.digits u List.mem_cons_self
        rw [Bool.or_eq_false_iff, beq_eq_false_iff_ne, beq_eq_false_iff_ne]
        constructor
        · rintro rfl
          cases isDigit
        · rintro rfl
          cases isDigit
  · rw [written.reads]
    exact prefers_result _ _

/-- A year of four digits, or a signed one of six. -/
theorem prefers_year {year : Int} (bounds : -999999 ≤ year ∧ year ≤ 999999) :
    Prefers yearGroup (isoYear year ++ 0x2d :: rest) year (0x2d :: rest) := by
  unfold isoYear
  split
  · have written : Writes (padded 4 (year.natAbs : Int)) 4 year.natAbs :=
      writes_padded (by omega) (by omega) (by omega)
    split
    · exact (prefers_signed rfl written (.inl rfl)).of_eq (by rw [if_pos rfl]; omega)
    · exact (prefers_unsigned written (.inl rfl)).of_eq (by omega)
  · have written : Writes (padded 6 (year.natAbs : Int)) 6 year.natAbs :=
      writes_padded (by omega) (by omega) (by omega)
    split
    · exact (prefers_signed rfl written (.inr rfl)).of_eq (by rw [if_pos rfl]; omega)
    · exact (prefers_signed rfl written (.inr rfl)).of_eq (by
        rw [if_neg (fun same => by cases same)]
        omega)

/-- Two digits behind their separator. -/
theorem prefers_twoDigits {number : DartString} {value : Int} {allowed : UInt16 → Bool}
    {u : UInt16} (separates : allowed u = true) (written : Writes number 2 value) :
    Prefers (twoDigitGroup (optional (unit allowed))) (u :: (number ++ rest)) value rest := by
  have split : [2] = [] ++ number.length :: [] := by
    rw [written.length]
    rfl
  refine (prefers_unit separates).optional.andThen
    ((prefers_digits written.digits split (List.forall_mem_nil _)).andThen ?_)
  rw [written.reads]
  exact prefers_result _ _

/-- What the pattern makes of the text of an instant. -/
def isoGroups (instant : DateTime) : Groups where
  year := instant.date.year
  month := instant.date.month
  day := instant.date.day
  hour := instant.hour
  minute := instant.minute
  second := instant.second
  fraction := instant.fractionText
  zone := some 0

theorem prefers_fraction (instant : DateTime) (stops : ∀ u ∈ rest.head?, digit u = false) :
    Prefers fractionGroup (0x2e :: (instant.fractionText ++ rest)) instant.fractionText rest := by
  refine Prefers.andThen (Prefers.optional (Prefers.andThen (prefers_unit rfl) ?_))
    (prefers_result _ _)
  exact prefers_someDigits instant.fractionText_digits instant.fractionText_ne_nil stops

theorem prefers_zulu : Prefers zoneGroup [0x5a] (some 0) [] := by
  apply Prefers.optional
  apply Prefers.either
  refine Prefers.andThen (prefers_absent (by rintro u ⟨⟩; rfl)) ?_
  exact Prefers.andThen (prefers_unit rfl) (prefers_result 0 [])

/-- The part behind the minutes. -/
theorem prefers_seconds (instant : DateTime) :
    Prefers (andThen (twoDigitGroup colonMark) fun second =>
        andThen fractionGroup fun fraction => result (second, fraction))
      (0x3a :: (padded 2 instant.second ++ 0x2e :: (instant.fractionText ++ [0x5a])))
      (instant.second, instant.fractionText) [0x5a] := by
  refine Prefers.andThen (prefers_twoDigits rfl instant.writes_second) ?_
  refine Prefers.andThen (prefers_fraction instant ?_) (prefers_result _ _)
  rintro u ⟨⟩
  rfl

theorem prefers_time {instant : DateTime} {groups : Groups}
    (dated : groups =
      { year := instant.date.year, month := instant.date.month, day := instant.date.day }) :
    Prefers (timeGroup groups)
      (0x54 :: (padded 2 instant.hour ++ 0x3a :: (padded 2 instant.minute ++
        0x3a :: (padded 2 instant.second ++ 0x2e :: (instant.fractionText ++ [0x5a])))))
      instant.isoGroups [] := by
  have split : [2] = [] ++ (padded 2 instant.hour).length :: [] := by
    rw [instant.writes_hour.length]
    rfl
  subst dated
  refine Prefers.andThen (Prefers.optional (Prefers.andThen (prefers_unit rfl) (Prefers.andThen
    (prefers_digits instant.writes_hour.digits split (List.forall_mem_nil _)) (Prefers.andThen
      (Prefers.optional (Prefers.andThen (prefers_twoDigits rfl instant.writes_minute)
        (Prefers.andThen (prefers_seconds instant).optional (prefers_result _ _))))
      (Prefers.andThen prefers_zulu (prefers_result _ _)))))) ?_
  refine (prefers_result _ _).of_eq ?_
  rw [Option.getD_some, instant.writes_hour.reads]
  rfl

/-- The whole text is matched as it was written. -/
theorem prefers_parseFormat {instant : DateTime} (utc : instant.isUtc = true) :
    Prefers parseFormat instant.toIso8601String instant.isoGroups [] := by
  have text : instant.toIso8601String =
      isoYear instant.date.year ++ 0x2d :: (padded 2 instant.date.month ++
        0x2d :: (padded 2 instant.date.day ++ 0x54 :: (padded 2 instant.hour ++
          0x3a :: (padded 2 instant.minute ++ 0x3a :: (padded 2 instant.second ++
            0x2e :: (instant.fractionText ++ [0x5a])))))) := by
    rw [toIso8601String, if_pos utc, fractionText]
    simp only [List.append_assoc, List.cons_append, List.nil_append]
  rw [text]
  refine Prefers.andThen (prefers_year instant.year_mem) ?_
  refine Prefers.andThen (prefers_twoDigits rfl instant.writes_month) ?_
  refine Prefers.andThen (prefers_twoDigits rfl instant.writes_day) ?_
  exact prefers_time rfl

/-- The groups are the instant again. -/
theorem wallMicroseconds_isoGroups (instant : DateTime) :
    wallMicroseconds instant.isoGroups = instant.microsecondsSinceEpoch := by
  obtain ⟨first, last⟩ := instant.date.month_mem
  have counted : instant.date.dayNumber = instant.dayNumber := Calendar.dayNumber_ofDayNumber _
  have noYears : (instant.date.month - 1) / 12 = 0 := by omega
  have sameMonth : (instant.date.month - 1) % 12 + 1 = instant.date.month := by omega
  rw [← microseconds_eq_parts, ← counted, ← parseMicroseconds_fractionText, wallMicroseconds]
  simp only [isoGroups, noYears, sameMonth, Int.add_zero, Option.getD_some, Int.sub_zero]
  rfl

/-- The text of an instant in UTC reads back as the instant, in any time zone of the phone. -/
theorem tryParse_toIso8601String (localToUtc : Int → Int) {instant : DateTime}
    (utc : instant.isUtc = true) : tryParse localToUtc instant.toIso8601String = some instant := by
  obtain ⟨others, matched⟩ := prefers_iff.mp (prefers_parseFormat utc)
  have found : (parseFormat instant.toIso8601String).find? (fun found => found.2.isEmpty) =
      some (instant.isoGroups, []) := by
    rw [matched]
    rfl
  have zoned : instant.isoGroups.zone = some 0 := rfl
  rw [tryParse, found]
  dsimp only
  rw [finishParse, wallMicroseconds_isoGroups, zoned]
  simp only [Option.isSome_some, Option.isNone_some, Bool.false_and, Bool.false_eq_true, if_true,
    if_false, dif_pos instant.lower, dif_pos instant.upper]
  cases instant
  cases utc
  rfl

end Reading

end DateTime

end DawnDock.App
