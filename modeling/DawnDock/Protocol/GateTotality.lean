import DawnDock.Protocol.Conformance

/-!
When the contract gate of the app answers (`answers_iff`).

The only branch of the gate that throws is the one of `_canonicalDouble` for a double
that is not finite. It is reached by a payload that passes the checks of the envelope and
does not report its own size, since only then is the payload serialized.
-/

namespace DawnDock.App

variable {δ : Type} [Double δ]

/-! ### Serialization -/

def IsFinite : Value δ → Prop
  | .number (.double value) => Double.isNaN value = false ∧ Double.isInfinite value = false
  | _ => True

/-- Every double in the value is finite. -/
def AllFinite (value : Value δ) : Prop := ∀ nested ∈ value.values, IsFinite nested

section Serialization

theorem allFinite_array {elements : List (Value δ)} :
    AllFinite (.array elements) ↔ ∀ element ∈ elements, AllFinite element := by
  simp only [AllFinite, Json.values, Json.elementValues_eq, List.mem_cons, List.mem_flatMap,
    forall_eq_or_imp, IsFinite, true_and]
  constructor
  · intro h element mem nested sub
    exact h nested ⟨element, mem, sub⟩
  · intro h nested ⟨element, mem, sub⟩
    exact h element mem nested sub

theorem allFinite_object {entries : Entries δ} :
    AllFinite (.object entries) ↔ ∀ entry ∈ entries, AllFinite entry.2 := by
  simp only [AllFinite, Json.values, Json.memberValues_eq, List.mem_cons, List.mem_flatMap,
    forall_eq_or_imp, IsFinite, true_and]
  constructor
  · intro h entry mem nested sub
    exact h nested ⟨entry, mem, sub⟩
  · intro h nested ⟨entry, mem, sub⟩
    exact h entry mem nested sub

theorem canonicalDouble_isSome (value : δ) :
    (canonicalDouble value).isSome ↔
      Double.isNaN value = false ∧ Double.isInfinite value = false := by
  rw [canonicalDouble, ← Bool.or_eq_false_iff]
  cases Double.isNaN value || Double.isInfinite value with
  | true =>
      constructor
      · intro ok
        cases ok
      · intro ok
        cases ok
  | false =>
      refine iff_of_true ?_ rfl
      rw [if_neg Bool.false_ne_true]
      split
      · split
        · rfl
        · rfl
      · rfl

mutual

/-- A value can be written if and only if its doubles are finite. -/
theorem writeCanonical_isSome (value : Value δ) :
    (writeCanonical value).isSome ↔ AllFinite value := by
  cases value with
  | null => exact iff_of_true rfl (by simp [AllFinite, Json.values, IsFinite])
  | boolean value => exact iff_of_true rfl (by simp [AllFinite, Json.values, IsFinite])
  | string text => exact iff_of_true rfl (by simp [AllFinite, Json.values, IsFinite])
  | number number =>
      rw [AllFinite, Json.values, List.forall_mem_singleton]
      cases number with
      | int value => exact iff_of_true rfl trivial
      | double value => exact canonicalDouble_isSome value
  | array elements =>
      rw [allFinite_array, ← writeElements_isSome elements, writeCanonical]
      cases writeElements elements with
      | none => rfl
      | some texts => rfl
  | object entries =>
      rw [allFinite_object, ← writeEntries_isSome entries, writeCanonical]
      cases writeEntries entries with
      | none => rfl
      | some texts => rfl

theorem writeElements_isSome (elements : List (Value δ)) :
    (writeElements elements).isSome ↔ ∀ element ∈ elements, AllFinite element := by
  cases elements with
  | nil => exact iff_of_true rfl (List.forall_mem_nil _)
  | cons element rest =>
      rw [List.forall_mem_cons, ← writeCanonical_isSome element, ← writeElements_isSome rest,
        writeElements]
      cases writeCanonical element with
      | none => simp
      | some text =>
          cases writeElements rest with
          | none => simp
          | some texts => simp

theorem writeEntries_isSome (entries : List (DartString × Value δ)) :
    (writeEntries entries).isSome ↔ ∀ entry ∈ entries, AllFinite entry.2 := by
  cases entries with
  | nil => exact iff_of_true rfl (List.forall_mem_nil _)
  | cons entry rest =>
      obtain ⟨key, value⟩ := entry
      rw [List.forall_mem_cons, ← writeCanonical_isSome value, ← writeEntries_isSome rest,
        writeEntries]
      cases writeCanonical value with
      | none => simp
      | some text =>
          cases writeEntries rest with
          | none => simp
          | some texts => simp

end

theorem serializedEnvelopeBytes_isSome (payload : Entries δ) :
    (serializedEnvelopeBytes payload).isSome ↔
      (reportedSize payload).isSome ∨ AllFinite (.object payload) := by
  rw [serializedEnvelopeBytes]
  cases reportedSize payload with
  | some size => simp
  | none => simp [canonicalize, writeCanonical_isSome]

end Serialization

/-! ### The gate -/

/-- What the checks of the envelope let through to the measuring of its size. -/
structure IsMeasured (payload : Entries δ) (replayWindow : Option (Finset DartString)) : Prop where
  protocol : lookup payload (utf16 "protocol") = some (.string kProtocolVersion)
  type : ∃ text ∈ kKnownTypes, lookup payload (utf16 "type") = some (.string text)
  messageId : ∃ text, lookup payload (utf16 "messageId") = some (.string text) ∧
    messageIdPattern text = true ∧ ∀ window ∈ replayWindow, text ∉ window
  sentAt : ∃ text, lookup payload (utf16 "sentAt") = some (.string text) ∧
    validUtcInstant text = true
  revision : ∀ text ∈ kRevisionRequiredTypes,
    lookup payload (utf16 "type") = some (.string text) →
      containsKey payload (utf16 "expectedRevision") = true

/-- The gate returns a code, and has changed the replay set for an accepted message only. -/
def Answers (payload : Entries δ) (replayWindow : Option (Finset DartString)) : Prop :=
  ∃ code after, validateContractMessage payload replayWindow = some (code, after) ∧
    (code ≠ .accepted → after = replayWindow)

section Gate

variable {payload : Entries δ} {replayWindow : Option (Finset DartString)}

omit [Double δ] in
theorem isString_of_lookup {check : DartString → Bool} {key text : DartString}
    (found : lookup payload key = some (.string text)) (passed : check text = true) :
    isString check (index payload key) = true := by
  rw [index_of_lookup found]
  exact passed

omit [Double δ] in
theorem envelopeCode_eq_none :
    envelopeCode payload replayWindow = none ↔ IsMeasured payload replayWindow := by
  constructor
  · intro passed
    obtain ⟨protocol, type, -, -, revision⟩ := of_envelopeCode passed
    unfold envelopeCode at passed
    iterate 2
      split at passed
      · cases passed
    split at passed
    · cases passed
    rename_i pattern
    split at passed
    · cases passed
    rename_i fresh
    split at passed
    · cases passed
    rename_i valid
    rw [Bool.not_eq_true', Bool.not_eq_false] at pattern valid
    refine ⟨protocol, type, ?_, of_isString valid, revision⟩
    obtain ⟨text, found, shaped⟩ := of_isString pattern
    refine ⟨text, found, shaped, ?_⟩
    rintro window rfl mem
    rw [index_of_lookup found] at fresh
    exact fresh (decide_eq_true mem)
  · rintro ⟨protocol, ⟨type, known, typed⟩, ⟨messageId, identified, shaped, fresh⟩,
      ⟨sentAt, sent, valid⟩, revision⟩
    have unseen : isString (fun id => replayWindow.any fun window => id ∈ window)
        (index payload (utf16 "messageId")) = false := by
      rw [index_of_lookup identified]
      cases replayWindow with
      | none => rfl
      | some window => exact decide_eq_false (fresh window rfl)
    have present : (isString kRevisionRequiredTypes.contains (index payload (utf16 "type")) &&
        !containsKey payload (utf16 "expectedRevision")) = false := by
      rw [index_of_lookup typed, Bool.and_eq_false_imp]
      intro required
      rw [revision type (List.contains_iff_mem.mp required) typed]
      rfl
    have versioned : isString (· == kProtocolVersion) (index payload (utf16 "protocol")) = true :=
      isString_of_lookup protocol (beq_self_eq_true kProtocolVersion)
    rw [envelopeCode, versioned, isString_of_lookup typed (List.contains_iff_mem.mpr known),
      isString_of_lookup identified shaped, unseen, isString_of_lookup sent valid, present]
    rfl

/-- Once the size is known the gate returns a code. -/
theorem answers_of_size (sized : (serializedEnvelopeBytes payload).isSome) :
    Answers payload replayWindow := by
  obtain ⟨size, sized⟩ := Option.isSome_iff_exists.mp sized
  rw [Answers, validateContractMessage, sized]
  cases envelopeCode payload replayWindow with
  | some code => exact ⟨code, replayWindow, rfl, fun _ => rfl⟩
  | none =>
      simp only [Option.bind_eq_bind, Option.bind_some]
      split
      · exact ⟨.envelopeTooLarge, replayWindow, rfl, fun _ => rfl⟩
      split
      · rename_i accepted
        exact ⟨_, _, rfl, fun refused => absurd accepted refused⟩
      · exact ⟨_, replayWindow, rfl, fun _ => rfl⟩

/-- The gate answers if and only if a message whose size has to be measured reports that
size itself or has finite doubles only. -/
theorem answers_iff (payload : Entries δ) (replayWindow : Option (Finset DartString)) :
    Answers payload replayWindow ↔
      (IsMeasured payload replayWindow →
        (reportedSize payload).isSome ∨ AllFinite (.object payload)) := by
  rw [← envelopeCode_eq_none, ← serializedEnvelopeBytes_isSome]
  constructor
  · rintro ⟨code, after, answered, -⟩ passed
    rw [validateContractMessage, passed] at answered
    cases sized : serializedEnvelopeBytes payload with
    | some size => rfl
    | none =>
        rw [sized] at answered
        cases answered
  · intro measured
    cases passed : envelopeCode payload replayWindow with
    | none => exact answers_of_size (measured passed)
    | some code =>
        refine ⟨code, replayWindow, ?_, fun _ => rfl⟩
        rw [validateContractMessage, passed]

/-- A double that is infinite, as the decoder makes it of `1e999`. -/
inductive Infinite where
  | infinite

instance : Double Infinite where
  isNaN := fun _ => false
  isInfinite := fun _ => true
  integer := fun _ => none
  toText := fun _ => utf16 "Infinity"

/-- A request for the schedule with an infinite number in its body. -/
def scheduleGetInfinite : Entries Infinite :=
  [(utf16 "protocol", .string kProtocolVersion), (utf16 "messageId", .string (utf16 "m1")),
    (utf16 "sentAt", .string (utf16 "2026-08-21T00:00:00Z")),
    (utf16 "type", .string (utf16 "schedule.get")),
    (utf16 "body", .object [(utf16 "limit", .number (.double .infinite))])]

theorem scheduleGetInfinite_throws :
    validateContractMessage scheduleGetInfinite none = none ∧
      ¬ Answers scheduleGetInfinite none := by
  have throws : validateContractMessage scheduleGetInfinite none = none := by
    decide +kernel
  refine ⟨throws, ?_⟩
  rintro ⟨code, after, answered, -⟩
  rw [throws] at answered
  cases answered

end Gate

end DawnDock.App
