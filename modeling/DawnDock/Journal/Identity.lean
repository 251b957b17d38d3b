import DawnDock.ScheduleStore.Snapshot
import Mathlib.Tactic.Ring

/-!
Occurrence identity. `makeOccurrenceId` joins the alarm id, the schedule revision
and the scheduled instant with colons. An alarm id may itself contain colons, but
the two decimal fields cannot, so the id names its three parts
(`makeOccurrenceId_inj`). It is also a string the store accepts
(`validString_makeOccurrenceId`).
-/

namespace DawnDock

/-! ### Decimal fields -/

/-- An ASCII digit. -/
def IsDigit (byte : UInt8) : Prop := 0x30 ≤ byte ∧ byte ≤ 0x39

instance (byte : UInt8) : Decidable (IsDigit byte) := inferInstanceAs (Decidable (_ ∧ _))

theorem isDigit_of_mem_decimal {value : Nat} {byte : UInt8} (mem : byte ∈ decimal value) :
    IsDigit byte := by
  obtain ⟨c, digit, rfl⟩ := List.mem_map.mp mem
  have isDigit := Nat.isDigit_of_mem_toDigits (by decide) (by decide) digit
  simp only [Char.isDigit, Bool.and_eq_true, decide_eq_true_eq] at isDigit
  obtain ⟨low, high⟩ := isDigit
  have low : 48 ≤ c.toNat := low
  have high : c.toNat ≤ 57 := high
  have byte : (UInt8.ofNat c.toNat).toNat = c.toNat := by
    rw [UInt8.toNat_ofNat', Nat.mod_eq_of_lt (by omega)]
  constructor
  · rw [UInt8.le_iff_toNat_le, byte]
    exact low
  · rw [UInt8.le_iff_toNat_le, byte]
    exact high

/-- Reading the digits back. -/
theorem decimal_inj {m n : Nat} (h : decimal m = decimal n) : m = n := by
  have toChars (value : Nat) :
      (decimal value).map (fun byte => Char.ofNat byte.toNat) = Nat.toDigits 10 value := by
    rw [decimal, List.map_map]
    refine (List.map_congr_left fun c digit => ?_).trans (List.map_id _)
    have isDigit := Nat.isDigit_of_mem_toDigits (by decide) (by decide) digit
    simp only [Char.isDigit, Bool.and_eq_true, decide_eq_true_eq] at isDigit
    have high : c.toNat ≤ 57 := isDigit.2
    simp only [Function.comp, UInt8.toNat_ofNat', id]
    rw [Nat.mod_eq_of_lt (by omega), Char.ofNat_toNat]
  have digits : Nat.toDigits 10 m = Nat.toDigits 10 n := by rw [← toChars, h, toChars]
  rw [← Nat.ofDigitChars_ten_toDigits (n := m), digits, Nat.ofDigitChars_ten_toDigits]

theorem length_decimal_le {value digits : Nat} (positive : 0 < digits) (h : value < 10 ^ digits) :
    (decimal value).length ≤ digits := by
  rw [decimal, List.length_map]
  exact (Nat.length_toDigits_le_iff (by decide) positive).mpr h

/-- The sign of a signed decimal. -/
def minus : UInt8 := 0x2d

theorem mem_signedDecimal {value : Int} {byte : UInt8} (mem : byte ∈ signedDecimal value) :
    byte = minus ∨ IsDigit byte := by
  unfold signedDecimal at mem
  split at mem
  · rcases List.mem_cons.mp mem with sign | digit
    · exact .inl sign
    · exact .inr (isDigit_of_mem_decimal digit)
  · exact .inr (isDigit_of_mem_decimal mem)

theorem not_isDigit_minus : ¬ IsDigit minus := by decide

theorem signedDecimal_inj {m n : Int} (h : signedDecimal m = signedDecimal n) : m = n := by
  have sign {k : Nat} {rest : Text} : ¬ decimal k = minus :: rest := fun digits =>
    not_isDigit_minus (isDigit_of_mem_decimal (digits ▸ List.mem_cons_self))
  unfold signedDecimal at h
  split at h <;> split at h
  · have := decimal_inj (List.cons.inj h).2
    omega
  · exact absurd h.symm sign
  · exact absurd h sign
  · have := decimal_inj h
    omega

theorem length_signedDecimal_le {value : Int} {digits : Nat} (positive : 0 < digits)
    (h : value.natAbs < 10 ^ digits) : (signedDecimal value).length ≤ digits + 1 := by
  have := length_decimal_le positive h
  unfold signedDecimal
  split
  · rw [List.length_cons]
    omega
  · omega

/-! ### Injectivity -/

/-- The last separator of a string is determined: what follows it is free of it. -/
theorem append_cons_inj_of_notMem_tail {α : Type} {x y s t : List α} {c : α} (left : c ∉ s)
    (right : c ∉ t) (h : x ++ c :: s = y ++ c :: t) : x = y ∧ s = t := by
  rcases List.append_eq_append_iff.mp h with ⟨middle, rfl, tail⟩ | ⟨middle, rfl, tail⟩
  · cases middle with
    | nil => exact ⟨by simp, (List.cons.inj tail).2⟩
    | cons d middle =>
        have : s = middle ++ c :: t := (List.cons.inj tail).2
        exact absurd (this ▸ List.mem_append_right _ List.mem_cons_self) left
  · cases middle with
    | nil => exact ⟨by simp, (List.cons.inj tail).2.symm⟩
    | cons d middle =>
        have : t = middle ++ c :: s := (List.cons.inj tail).2
        exact absurd (this ▸ List.mem_append_right _ List.mem_cons_self) right

theorem not_isDigit_colon : ¬ IsDigit colon := by decide

theorem colon_notMem_decimal (value : Nat) : colon ∉ decimal value := fun mem =>
  not_isDigit_colon (isDigit_of_mem_decimal mem)

theorem colon_notMem_signedDecimal (value : Int) : colon ∉ signedDecimal value := by
  intro mem
  rcases mem_signedDecimal mem with sign | digit
  · exact absurd sign (by decide)
  · exact not_isDigit_colon digit

/-- An occurrence id names the alarm id, the schedule revision and the instant. -/
theorem makeOccurrenceId_inj {a b : AlarmDefinition} (h : makeOccurrenceId a = makeOccurrenceId b) :
    a.id = b.id ∧ a.scheduleRevision = b.scheduleRevision ∧
      a.scheduledUtcSeconds = b.scheduledUtcSeconds := by
  simp only [makeOccurrenceId, ← List.cons_append, ← List.append_assoc] at h
  obtain ⟨front, instant⟩ := append_cons_inj_of_notMem_tail (colon_notMem_signedDecimal _)
    (colon_notMem_signedDecimal _) h
  obtain ⟨id, revision⟩ := append_cons_inj_of_notMem_tail (colon_notMem_decimal _)
    (colon_notMem_decimal _) front
  exact ⟨id, UInt64.toNat_inj.mp (decimal_inj revision),
    Int64.toInt_inj.mp (signedDecimal_inj instant)⟩

/-! ### Bounds -/

theorem validString_iff {value : Text} {maximum : Nat} :
    validString value maximum = true ↔
      value ≠ [] ∧ value.length ≤ maximum ∧ ∀ byte ∈ value, 0x20 ≤ byte := by
  simp only [validString, Bool.and_eq_true, Bool.not_eq_true', List.isEmpty_eq_false_iff,
    decide_eq_true_eq, List.any_eq_false, Bool.or_eq_true, beq_iff_eq, not_or, UInt8.not_lt,
    and_assoc, and_congr_right_iff]
  intro _ _
  constructor
  · exact fun h byte mem => (h byte mem).2
  · intro h byte mem
    refine ⟨?_, h byte mem⟩
    rintro rfl
    exact absurd (h 0 mem) (by decide)

theorem validString_makeOccurrenceId {alarm : AlarmDefinition}
    (id : validString alarm.id kMaximumAlarmIdBytes = true) :
    validString (makeOccurrenceId alarm) kMaximumOccurrenceIdBytes = true := by
  obtain ⟨-, short, printable⟩ := validString_iff.mp id
  have printableDigit {byte : UInt8} (digit : IsDigit byte) : 0x20 ≤ byte :=
    UInt8.le_trans (by decide) digit.1
  have revision : (decimal alarm.scheduleRevision.toNat).length ≤ 20 :=
    length_decimal_le (by decide) (Nat.lt_trans alarm.scheduleRevision.toNat_lt (by decide))
  have instant : (signedDecimal alarm.scheduledUtcSeconds.toInt).length ≤ 20 := by
    have low := alarm.scheduledUtcSeconds.le_toInt
    have high := alarm.scheduledUtcSeconds.toInt_lt
    exact @length_signedDecimal_le _ 19 (by decide) (by omega)
  refine validString_iff.mpr ⟨by simp [makeOccurrenceId], ?_, ?_⟩
  · simp only [makeOccurrenceId, List.length_append, List.length_cons, kMaximumAlarmIdBytes,
      kMaximumOccurrenceIdBytes] at short ⊢
    omega
  · intro byte mem
    simp only [makeOccurrenceId, List.mem_append, List.mem_cons] at mem
    rcases mem with mem | rfl | mem | rfl | mem
    · exact printable byte mem
    · decide
    · exact printableDigit (isDigit_of_mem_decimal mem)
    · decide
    · rcases mem_signedDecimal mem with rfl | digit
      · decide
      · exact printableDigit digit

end DawnDock
