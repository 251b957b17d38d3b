import DawnDock.App.AlarmDraft

/-!
The app's mirror of a device's committed schedule (`schedule_store.dart`), and which
proposals the contract gate accepts (`proposal_accepted_iff`).
-/

namespace DawnDock.App

structure SyncReceipt where
  appliedRevision : Int64
  alarmCount : Int64
  nextAlarmUtc : DateTime
  receivedAtUtc : DateTime
deriving DecidableEq

structure DeviceScheduleStore where
  committed : List AlarmDraft
  knownRevision : Int64
  lastReceipt : Option SyncReceipt
deriving DecidableEq

/-- A store as constructed. -/
def DeviceScheduleStore.empty : DeviceScheduleStore :=
  { committed := [], knownRevision := 0, lastReceipt := none }

/-- `toSet()` keeps each id once. -/
def validateProposal (proposal : List AlarmDraft) : Except DartError Unit :=
  if proposal.length > kMaxStoredAlarms then
    .error (.argumentError ("proposal exceeds the " ++ toString kMaxStoredAlarms ++
      "-alarm device bound"))
  else if (proposal.map (·.id)).dedup.length ≠ proposal.length then
    .error (.argumentError "proposal contains duplicate alarm ids")
  else .ok ()

namespace DeviceScheduleStore

/-- `now` is the reading of the store's clock. -/
def recordApplied (store : DeviceScheduleStore) (revision : Int64) (appliedAlarms : List AlarmDraft)
    (nextAlarmUtc now : DateTime) : Except DartError DeviceScheduleStore := do
  validateProposal appliedAlarms
  if revision ≤ store.knownRevision then
    .error (.stateError ("receipt revision " ++ toString revision.toInt ++
      " does not advance past " ++ toString store.knownRevision.toInt))
  else
    return {
      committed := appliedAlarms
      knownRevision := revision
      lastReceipt := some {
        appliedRevision := revision
        alarmCount := Int64.ofNat appliedAlarms.length
        nextAlarmUtc := nextAlarmUtc.toUtc
        receivedAtUtc := now.toUtc } }

def replaceAll (revision : Int64) (alarms : List AlarmDraft) (receipt : Option SyncReceipt) :
    Except DartError DeviceScheduleStore := do
  validateProposal alarms
  if revision < 0 then .error (.argumentError "revision must be non-negative")
  else if receipt.any fun receipt => receipt.appliedRevision != revision ||
      receipt.alarmCount != Int64.ofNat alarms.length then
    .error (.argumentError "receipt is inconsistent with replaced state")
  else return { committed := alarms, knownRevision := revision, lastReceipt := receipt }

end DeviceScheduleStore

/-- What `validateProposal` lets through. -/
structure ProposalChecks (proposal : List AlarmDraft) : Prop where
  fits : proposal.length ≤ kMaxStoredAlarms
  ids : (proposal.map (·.id)).Nodup

section Proposals

variable {proposal : List AlarmDraft}

theorem dedup_length_eq_iff {α : Type} [DecidableEq α] {values : List α} :
    values.dedup.length = values.length ↔ values.Nodup := by
  constructor
  · intro same
    exact List.dedup_eq_self.mp ((List.dedup_sublist values).eq_of_length same)
  · intro nodup
    rw [nodup.dedup]

theorem validateProposal_eq_ok : validateProposal proposal = .ok () ↔ ProposalChecks proposal := by
  unfold validateProposal
  split
  · rename_i many
    exact iff_of_false nofun fun checks => Nat.not_lt.mpr checks.fits many
  rename_i few
  split
  · rename_i repeated
    refine iff_of_false nofun fun checks => repeated ?_
    rw [dedup_length_eq_iff.mpr checks.ids, List.length_map]
  · rename_i distinct
    refine iff_of_true rfl ⟨Nat.not_lt.mp few, ?_⟩
    rw [← dedup_length_eq_iff, List.length_map]
    exact not_not.mp distinct

end Proposals

/-- What `recordApplied` does where it does not throw. -/
theorem of_recordApplied {store after : DeviceScheduleStore} {revision : Int64}
    {nextAlarmUtc now : DateTime}
    (recorded : store.recordApplied revision proposal nextAlarmUtc now = .ok after) :
    ProposalChecks proposal ∧ store.knownRevision < revision ∧ after.committed = proposal ∧
      after.knownRevision = revision := by
  unfold DeviceScheduleStore.recordApplied at recorded
  cases valid : validateProposal proposal with
  | error error =>
      rw [valid] at recorded
      cases recorded
  | ok =>
      rw [valid] at recorded
      change (if revision ≤ store.knownRevision then _ else _) = Except.ok after at recorded
      split at recorded
      · cases recorded
      · rename_i later
        cases recorded
        exact ⟨validateProposal_eq_ok.mp valid, Int64.not_le.mp later, rfl, rfl⟩

theorem recordApplied_ok {store : DeviceScheduleStore} {revision : Int64}
    {nextAlarmUtc now : DateTime} (checks : ProposalChecks proposal)
    (later : store.knownRevision < revision) :
    ∃ after, store.recordApplied revision proposal nextAlarmUtc now = .ok after := by
  rw [DeviceScheduleStore.recordApplied, validateProposal_eq_ok.mpr checks]
  change ∃ after, (if revision ≤ store.knownRevision then _ else _) = Except.ok after
  rw [if_neg (Int64.not_le.mpr later)]
  exact ⟨_, rfl⟩

/-! ### The gate -/

section Gate

variable {δ : Type} {proposal : List AlarmDraft}

/-- The body that previews and applies a proposal. -/
def proposalBody (proposal : List AlarmDraft) : Entries δ :=
  [(utf16 "alarms", .array (proposal.map AlarmDraft.toWireAlarm))]

theorem validateAlarms_wire :
    validateAlarms (proposal.map AlarmDraft.toWireAlarm : List (Value δ)) = .accepted ↔
      ∀ draft ∈ proposal, draft.EventIdFits := by
  induction proposal with
  | nil => exact iff_of_true rfl (List.forall_mem_nil _)
  | cons draft proposal ih =>
      rw [List.map_cons, validateAlarms, List.forall_mem_cons,
        ← @AlarmDraft.validateAlarm_toWireAlarm δ, ← ih]
      cases validateAlarm (draft.toWireAlarm : Value δ) with
      | accepted => exact ⟨fun rest => ⟨rfl, rest⟩, And.right⟩
      | _ => exact iff_of_false nofun fun h => nomatch h.1

theorem alarmId_wire (draft : AlarmDraft) : alarmId (draft.toWireAlarm : Value δ) = draft.id := rfl

theorem ids_wire : (proposal.map AlarmDraft.toWireAlarm : List (Value δ)).map alarmId =
    proposal.map (·.id) := by
  rw [List.map_map]
  apply List.map_congr_left
  intro draft _
  exact alarmId_wire draft

theorem validateScheduleBody_wire (checks : ProposalChecks proposal) :
    validateScheduleBody (proposalBody proposal : Entries δ) = .accepted ↔
      ∀ draft ∈ proposal, draft.EventIdFits := by
  have read : index (proposalBody proposal : Entries δ) (utf16 "alarms") =
      .array (proposal.map AlarmDraft.toWireAlarm) := rfl
  have distinct : ¬ ((proposal.map (·.id)).dedup.length != (proposal.map (·.id)).length) = true := by
    rw [dedup_length_eq_iff.mpr checks.ids, bne_self_eq_false]
    exact Bool.false_ne_true
  rw [validateScheduleBody, read]
  dsimp only
  rw [List.length_map, if_neg (Nat.not_lt.mpr checks.fits), ids_wire, if_neg distinct]
  refine Iff.trans ?_ (@validateAlarms_wire δ proposal)
  cases validateAlarms (proposal.map AlarmDraft.toWireAlarm : List (Value δ)) with
  | accepted => exact iff_of_true rfl rfl
  | _ => exact iff_of_false nofun nofun

/-- The gate accepts a validated proposal if and only if the event ids of its drafts have at
most 128 bytes. -/
theorem proposal_accepted_iff (valid : validateProposal proposal = .ok ()) :
    validateScheduleBody (proposalBody proposal : Entries δ) = .accepted ↔
      ∀ draft ∈ proposal, ∀ provenance ∈ draft.provenance,
        utf8Length provenance.sourceEventId ≤ kMaxSourceEventIdBytes :=
  validateScheduleBody_wire (validateProposal_eq_ok.mp valid)

/-- A draft with the least of everything, imported from the event. -/
def importedFields (sourceEventId : DartString) : AlarmFields :=
  { id := utf16 "a"
    label := utf16 "a"
    enabled := true
    localHour := 7
    localMinute := 0
    days := {1}
    timezone := utf16 "UTC"
    snoozeMinutes := 1
    volume := 0
    sound := utf16 "a"
    source := .ics
    provenance := some { sourceEventId, originLabel := utf16 "ics" } }

def imported (sourceEventId : DartString) : AlarmDraft :=
  { importedFields sourceEventId with
    valid := by
      rfl }

theorem imported_accepted :
    validateProposal [imported (utf16 "e1")] = .ok () ∧
      validateScheduleBody (proposalBody [imported (utf16 "e1")] : Entries Empty) = .accepted := by
  have valid : validateProposal [imported (utf16 "e1")] = .ok () := by
    rfl
  refine ⟨valid, (proposal_accepted_iff valid).mpr ?_⟩
  intro draft mem provenance carried
  rw [List.mem_singleton.mp mem] at carried
  cases carried
  decide

/-- An event id of 129 bytes makes a draft that the gate rejects. -/
theorem imported_rejected :
    validateProposal [imported (List.replicate 129 0x61)] = .ok () ∧
      validateScheduleBody (proposalBody [imported (List.replicate 129 0x61)] : Entries Empty) ≠
        .accepted := by
  have valid : validateProposal [imported (List.replicate 129 0x61)] = .ok () := by
    rfl
  refine ⟨valid, ?_⟩
  rw [ne_eq, validateScheduleBody_wire (validateProposal_eq_ok.mp valid)]
  intro fits
  have short := fits _ (List.mem_singleton_self _) _ rfl
  exact absurd short (by decide +kernel)

end Gate

end DawnDock.App
