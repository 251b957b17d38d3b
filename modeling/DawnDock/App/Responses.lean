import DawnDock.App.ScheduleExchange
import DawnDock.Library.MachineInt

/-!
What a response that the contract gate accepts carries: the casts and the parsing that
the exchange does on it cannot fail (`readReceipt_ok`, `errorFields_ok`).
-/

namespace DawnDock.App

section Reads

variable {δ : Type} {payload : Entries δ} {key : DartString}

theorem of_isInt {check : Int64 → Bool} (h : isInt check (index payload key) = true) :
    ∃ value, index payload key = .number (.int value) ∧ check value = true := by
  cases found : index payload key with
  | number number =>
      rw [found] at h
      cases number with
      | int value => exact ⟨value, rfl, h⟩
      | double value => cases h
  | _ =>
      rw [found] at h
      cases h

theorem index_of_isString {check : DartString → Bool}
    (h : isString check (index payload key) = true) :
    ∃ text, index payload key = .string text ∧ check text = true := by
  obtain ⟨text, found, passed⟩ := of_isString h
  exact ⟨text, index_of_lookup found, passed⟩

end Reads

/-! ### Instants -/

theorem parseDigits_four {a b c d : UInt16} (digits : ∀ u ∈ [a, b, c, d], digit u = true) :
    parseDigits [a, b, c, d] ≤ 9999 := by
  have value (u : UInt16) (mem : u ∈ [a, b, c, d]) : u.toNat - 0x30 ≤ 9 := by
    have range := digits u mem
    rw [digit, Bool.and_eq_true, decide_eq_true_eq, decide_eq_true_eq] at range
    have upper := UInt16.le_iff_toNat_le.mp range.2
    change u.toNat ≤ 57 at upper
    omega
  have first := value a (by simp)
  have second := value b (by simp)
  have third := value c (by simp)
  have fourth := value d (by simp)
  simp only [parseDigits, List.foldl_cons, List.foldl_nil]
  omega

theorem of_matchesEach_cons {matching : UInt16 → Bool} {classes : List (UInt16 → Bool)}
    {text : DartString} (h : matchesEach (matching :: classes) text = true) :
    ∃ unit rest, text = unit :: rest ∧ matching unit = true ∧ matchesEach classes rest = true := by
  cases text with
  | nil => cases h
  | cons unit rest =>
      rw [matchesEach, Bool.and_eq_true] at h
      exact ⟨unit, rest, rfl, h⟩

/-- The year of an instant has four digits. -/
theorem year_le {text : DartString} (shaped : sentAtPattern text = true) :
    parseDigits (substring text 0 4) ≤ 9999 := by
  obtain ⟨a, text, rfl, first, shaped⟩ := of_matchesEach_cons shaped
  obtain ⟨b, text, rfl, second, shaped⟩ := of_matchesEach_cons shaped
  obtain ⟨c, text, rfl, third, shaped⟩ := of_matchesEach_cons shaped
  obtain ⟨d, text, rfl, fourth, -⟩ := of_matchesEach_cons shaped
  apply parseDigits_four
  simp only [List.forall_mem_cons]
  exact ⟨first, second, third, fourth, List.forall_mem_nil _⟩

/-- The fields of an instant are in their ranges. -/
theorem fields_of_valid {text : DartString} (valid : validUtcInstant text = true) :
    parseDigits (substring text 0 4) ≤ 9999 ∧
      (1 ≤ parseDigits (substring text 5 7) ∧ parseDigits (substring text 5 7) ≤ 12) ∧
      parseDigits (substring text 8 10) ≤ 32 ∧ parseDigits (substring text 11 13) ≤ 23 ∧
      parseDigits (substring text 14 16) ≤ 59 ∧ parseDigits (substring text 17 19) ≤ 59 := by
  have year := year_le (sentAtPattern_of_valid valid)
  have length : ∀ month, daysPerMonth month ≤ 31 := by
    intro month
    unfold daysPerMonth
    by_cases within : month - 1 < 12
    · generalize month - 1 = index at within
      decide +revert
    · rw [List.getD_eq_default _ _ (Nat.not_lt.mp within)]
      exact Nat.zero_le _
  unfold validUtcInstant at valid
  split at valid
  · cases valid
  dsimp only at valid
  split at valid
  · cases valid
  rename_i ranges
  simp only [Bool.or_eq_true, decide_eq_true_eq, not_or, Nat.not_lt, beq_iff_eq] at ranges
  obtain ⟨⟨⟨⟨⟨-, monthLow⟩, monthHigh⟩, hour⟩, minute⟩, second⟩ := ranges
  rw [Bool.and_eq_true, decide_eq_true_eq, decide_eq_true_eq] at valid
  have day := valid.2
  have inMonth := length (parseDigits (substring text 5 7))
  refine ⟨year, ⟨monthLow, monthHigh⟩, ?_, hour, minute, second⟩
  split at day
  · omega
  · omega

theorem parseUtcInstant_ok {text : DartString} (valid : validUtcInstant text = true) :
    ∃ instant, parseUtcInstant text = .ok instant := by
  obtain ⟨year, month, day, hour, minute, second⟩ := fields_of_valid valid
  rw [parseUtcInstant, valid, Bool.not_true, if_neg Bool.false_ne_true]
  generalize parseDigits (substring text 0 4) = y at *
  generalize parseDigits (substring text 5 7) = m at *
  generalize parseDigits (substring text 8 10) = d at *
  generalize parseDigits (substring text 11 13) = h at *
  generalize parseDigits (substring text 14 16) = n at *
  generalize parseDigits (substring text 17 19) = s at *
  have years : -366 ≤ Calendar.daysBeforeYear y ∧ Calendar.daysBeforeYear y ≤ 3652000 := by
    unfold Calendar.daysBeforeYear
    omega
  have months : 0 ≤ Calendar.daysBeforeMonth y m ∧ Calendar.daysBeforeMonth y m ≤ 366 := by
    unfold Calendar.daysBeforeMonth
    split
    · omega
    split
    · omega
    · omega
  have bound : kMaxMicroseconds = 8640000000000000000 := rfl
  dsimp only
  rw [DateTime.ofMicroseconds, dif_pos (by omega), dif_pos (by omega)]
  exact ⟨_, rfl⟩

/-! ### Responses -/

section Responses

variable {δ : Type} [Double δ] {payload body : Entries δ}
  {replayWindow after : Option (Finset DartString)}

theorem validateBody_of_accepted
    (accepted : validateContractMessage payload replayWindow = some (.accepted, after)) :
    validateBody (asString (index payload (utf16 "type"))) (index payload (utf16 "body")) =
      .accepted := by
  unfold validateContractMessage at accepted
  split at accepted
  · rename_i code failed
    cases accepted
    exact absurd failed envelopeCode_ne_accepted
  cases sized : serializedEnvelopeBytes payload with
  | none =>
      rw [sized] at accepted
      cases accepted
  | some size =>
      rw [sized] at accepted
      simp only [Option.bind_eq_bind, Option.bind_some] at accepted
      split at accepted
      · cases accepted
      split at accepted
      · exact (Prod.mk.inj (Option.some.inj accepted)).1
      · exact (Prod.mk.inj (Option.some.inj accepted)).1

omit [Double δ] in
theorem not_kept {condition : Bool} {code : ContractCode}
    (h : (if !condition then ContractCode.schemaInvalid else code) = .accepted) :
    condition = true ∧ code = .accepted := by
  cases condition with
  | true => exact ⟨rfl, h⟩
  | false => cases h

omit [Double δ] in
/-- The fields of a receipt that the gate accepts. -/
theorem receipt_of_valid (valid : validateSyncReceiptBody body = .accepted) :
    ∃ applied count text, index body (utf16 "appliedRevision") = .number (.int applied) ∧
      (0 : Int) ≤ applied.toInt ∧ index body (utf16 "alarmCount") = .number (.int count) ∧
      index body (utf16 "nextAlarmUtc") = .string text ∧ validUtcInstant text = true := by
  unfold validateSyncReceiptBody at valid
  obtain ⟨-, valid⟩ := not_kept valid
  obtain ⟨applied, valid⟩ := not_kept valid
  obtain ⟨count, valid⟩ := not_kept valid
  split at valid
  · cases valid
  obtain ⟨next, -⟩ := not_kept valid
  obtain ⟨revision, foundRevision, nonneg⟩ := of_isInt applied
  obtain ⟨alarms, foundCount, -⟩ := of_isInt count
  obtain ⟨text, foundNext, instant⟩ := index_of_isString next
  rw [Bool.not_eq_true', decide_eq_false_iff_not, Int64.not_lt, Int64.le_iff_toInt_le] at nonneg
  exact ⟨revision, alarms, text, foundRevision, nonneg, foundCount, foundNext, instant⟩

omit [Double δ] in
/-- The fields of an error that the gate accepts. -/
theorem error_of_valid (valid : validateErrorResponseBody body = .accepted) :
    ∃ currentRevision,
      ScheduleExchange.asOptionalInt (index body (utf16 "currentRevision")) = .ok currentRevision := by
  unfold validateErrorResponseBody at valid
  split at valid
  · cases valid
  obtain ⟨-, valid⟩ := not_kept valid
  obtain ⟨-, valid⟩ := not_kept valid
  split at valid
  · cases valid
  obtain ⟨-, valid⟩ := not_kept valid
  split at valid
  · cases valid
  rename_i typed
  cases present : containsKey body (utf16 "currentRevision") with
  | false =>
      have absent : lookup body (utf16 "currentRevision") = none := by
        rw [containsKey, Option.isSome_eq_false_iff, Option.isNone_iff_eq_none] at present
        exact present
      rw [index, absent]
      exact ⟨none, rfl⟩
  | true =>
      rw [present, Bool.true_and, Bool.not_eq_true', Bool.not_eq_false] at typed
      obtain ⟨revision, found, -⟩ := of_isInt typed
      rw [found]
      exact ⟨some revision, rfl⟩

omit [Double δ] in
theorem readReceipt_ok (valid : validateSyncReceiptBody body = .accepted) :
    ∃ receipt, ScheduleExchange.readReceipt body = .ok receipt ∧
      index body (utf16 "appliedRevision") = .number (.int receipt.appliedRevision) ∧
      index body (utf16 "alarmCount") = .number (.int receipt.alarmCount) ∧
      (0 : Int) ≤ receipt.appliedRevision.toInt := by
  obtain ⟨applied, count, text, foundRevision, nonneg, foundCount, foundNext, instant⟩ :=
    receipt_of_valid valid
  obtain ⟨next, parsed⟩ := parseUtcInstant_ok instant
  rw [ScheduleExchange.readReceipt, foundRevision, foundCount, foundNext, asString]
  change ∃ receipt, (parseUtcInstant text >>= fun _ => _) = Except.ok receipt ∧ _
  rw [parsed]
  exact ⟨_, rfl, rfl, rfl, nonneg⟩

end Responses

/-- The next revision, if it is not negative. -/
theorem toInt_succ {revision next : Int64} (same : next = revision + 1) (nonneg : 0 ≤ next.toInt) :
    next.toInt = revision.toInt + 1 := by
  have low := revision.le_toInt
  have high := revision.toInt_lt
  by_cases last : revision.toInt = 2 ^ 63 - 1
  · have top : revision = Int64.maxValue := Int64.toInt_inj.mp last
    subst same
    rw [top] at nonneg
    exact absurd nonneg (by decide)
  · have one : (1 : Int64).toInt = 1 := rfl
    rw [same, MachineInt.toInt_add]
    · rw [one]
    · rw [one]
      omega

end DawnDock.App
