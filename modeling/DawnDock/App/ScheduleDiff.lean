import DawnDock.App.DeviceScheduleStore

/-!
The reviewable diff between a committed schedule and a proposal (`schedule_diff.dart`).

A diff of a proposal carries the whole proposal: `proposedOrder` is a permutation of it
(`proposedOrder_perm`), so it passes the checks that the proposal has passed.
-/

namespace DawnDock.App

/-- The codes of the fields that differ, in the order of their names. -/
def describeFieldChanges (before after : AlarmDraft) : Except DartError (List DartString) :=
  if before.id ≠ after.id then
    .error (.argumentValue "after.id" "field changes require the same alarm id")
  else
    let codes :=
      (if before.label ≠ after.label then [utf16 "label"] else []) ++
      (if before.enabled ≠ after.enabled then [utf16 "enabled"] else []) ++
      (if before.localHour ≠ after.localHour ∨ before.localMinute ≠ after.localMinute then
        [utf16 "local-time"] else []) ++
      (if before.days ≠ after.days then [utf16 "days"] else []) ++
      (if before.timezone ≠ after.timezone then [utf16 "timezone"] else []) ++
      (if before.snoozeMinutes ≠ after.snoozeMinutes then [utf16 "snooze-minutes"] else []) ++
      (if before.volume ≠ after.volume then [utf16 "volume"] else []) ++
      (if before.sound ≠ after.sound then [utf16 "sound"] else []) ++
      (if before.source ≠ after.source ∨ before.provenance ≠ after.provenance then
        [utf16 "source-or-provenance"] else [])
    .ok (codes.insertionSort (· ≤ ·))

/-- An alarm on both sides that differs. -/
structure ChangedAlarm where
  before : AlarmDraft
  after : AlarmDraft
  fieldCodes : List DartString
  described : describeFieldChanges before after = .ok fieldCodes
  differs : fieldCodes ≠ []

/-- The constructor. -/
def ChangedAlarm.create (before after : AlarmDraft) : Except DartError ChangedAlarm :=
  match described : describeFieldChanges before after with
  | .error error => .error error
  | .ok fieldCodes =>
    if same : fieldCodes = [] then
      .error (.argumentError "changed alarm has no field differences; it belongs in unchanged ids")
    else .ok { before, after, fieldCodes, described, differs := same }

structure ScheduleDiff where
  expectedRevision : Int64
  added : List AlarmDraft
  removed : List AlarmDraft
  changed : List ChangedAlarm
  unchangedAlarms : List AlarmDraft

namespace ScheduleDiff

/-- The ids, in their order. -/
def unchanged (diff : ScheduleDiff) : List DartString :=
  (diff.unchangedAlarms.map (·.id)).insertionSort (· ≤ ·)

/-- The proposed replacement set, as an apply sends it. -/
def proposedOrder (diff : ScheduleDiff) : List AlarmDraft :=
  diff.added ++ diff.changed.map (·.after) ++ diff.unchangedAlarms

def toWirePreviewBody {δ : Type} (diff : ScheduleDiff) : List (Value δ) :=
  diff.proposedOrder.map AlarmDraft.toWireAlarm

end ScheduleDiff

/-- `baselineById[id]`: of alarms with one id the last. -/
def findBaseline (baseline : List AlarmDraft) (id : DartString) : Option AlarmDraft :=
  baseline.reverse.find? fun alarm => alarm.id == id

/-- The alarms of a proposal, by what became of them. -/
structure Classified where
  added : List AlarmDraft
  changed : List ChangedAlarm
  unchanged : List AlarmDraft

/-- The loop over the proposal. -/
def classify (baseline : List AlarmDraft) : List AlarmDraft → Except DartError Classified
  | [] => .ok { added := [], changed := [], unchanged := [] }
  | alarm :: rest =>
    match findBaseline baseline alarm.id with
    | none => do
      let classified ← classify baseline rest
      return { classified with added := alarm :: classified.added }
    | some before => do
      let codes ← describeFieldChanges before alarm
      if codes = [] then
        let classified ← classify baseline rest
        return { classified with unchanged := alarm :: classified.unchanged }
      else
        let change ← ChangedAlarm.create before alarm
        let classified ← classify baseline rest
        return { classified with changed := change :: classified.changed }

/-- `sort` by id. -/
def sortById (alarms : List AlarmDraft) : List AlarmDraft :=
  alarms.insertionSort fun a b => a.id ≤ b.id

def sortChangedById (alarms : List ChangedAlarm) : List ChangedAlarm :=
  alarms.insertionSort fun a b => a.after.id ≤ b.after.id

def diffSchedule (baseline proposal : List AlarmDraft) (expectedRevision : Int64) :
    Except DartError ScheduleDiff := do
  validateProposal proposal
  let classified ← classify baseline proposal
  let removed := baseline.filter fun alarm => !(proposal.map (·.id)).contains alarm.id
  return {
    expectedRevision
    added := sortById classified.added
    removed := sortById removed
    changed := sortChangedById classified.changed
    unchangedAlarms := sortById classified.unchanged }

/-! ### The proposal in the diff -/

section Diff

variable {baseline proposal : List AlarmDraft} {expectedRevision : Int64}

theorem findBaseline_id {id : DartString} {before : AlarmDraft}
    (found : findBaseline baseline id = some before) : before.id = id := by
  have same := List.find?_some found
  exact beq_iff_eq.mp same

theorem describeFieldChanges_ok {before after : AlarmDraft} (same : before.id = after.id) :
    ∃ codes, describeFieldChanges before after = .ok codes := by
  rw [describeFieldChanges, if_neg (not_not.mpr same)]
  exact ⟨_, rfl⟩

theorem create_ok {before after : AlarmDraft} {codes : List DartString}
    (described : describeFieldChanges before after = .ok codes) (differs : codes ≠ []) :
    ∃ change, ChangedAlarm.create before after = .ok change ∧ change.after = after := by
  unfold ChangedAlarm.create
  split
  · rename_i error failed
    rw [described] at failed
    cases failed
  · rename_i fieldCodes found
    rw [described] at found
    cases found
    rw [dif_neg differs]
    exact ⟨_, rfl, rfl⟩

/-- Every alarm of the proposal is classified, and once. -/
theorem classify_ok (baseline proposal : List AlarmDraft) :
    ∃ classified, classify baseline proposal = .ok classified ∧
      (classified.added ++ classified.changed.map (·.after) ++ classified.unchanged).Perm
        proposal := by
  induction proposal with
  | nil => exact ⟨_, rfl, .refl []⟩
  | cons alarm rest ih =>
      obtain ⟨classified, passed, perm⟩ := ih
      rw [classify]
      cases found : findBaseline baseline alarm.id with
      | none =>
          dsimp only
          rw [passed]
          exact ⟨_, rfl, perm.cons alarm⟩
      | some before =>
          obtain ⟨codes, described⟩ := describeFieldChanges_ok (findBaseline_id found)
          dsimp only
          rw [described]
          change ∃ result, (if codes = [] then _ else _) = Except.ok result ∧ _
          by_cases same : codes = []
          · rw [if_pos same, passed]
            exact ⟨_, rfl, List.perm_middle.trans (perm.cons alarm)⟩
          · obtain ⟨change, created, after⟩ := create_ok described same
            rw [if_neg same, created, passed]
            refine ⟨_, rfl, ?_⟩
            dsimp only
            rw [List.map_cons, after, List.append_assoc, List.cons_append]
            refine List.perm_middle.trans (List.Perm.cons alarm ?_)
            rw [← List.append_assoc]
            exact perm

theorem diffSchedule_ok (valid : validateProposal proposal = .ok ()) :
    ∃ diff, diffSchedule baseline proposal expectedRevision = .ok diff := by
  obtain ⟨classified, passed, -⟩ := classify_ok baseline proposal
  rw [diffSchedule, valid]
  change ∃ diff, (classify baseline proposal >>= _) = Except.ok diff
  rw [passed]
  exact ⟨_, rfl⟩

/-- Only the proposal can be refused. -/
theorem diffSchedule_cases (baseline proposal : List AlarmDraft) (expectedRevision : Int64) :
    (∃ message, diffSchedule baseline proposal expectedRevision = .error (.argumentError message)) ∨
      ∃ diff, diffSchedule baseline proposal expectedRevision = .ok diff := by
  cases valid : validateProposal proposal with
  | ok => exact .inr (diffSchedule_ok valid)
  | error error =>
      have refused : diffSchedule baseline proposal expectedRevision = .error error := by
        rw [diffSchedule, valid]
        rfl
      rw [refused]
      unfold validateProposal at valid
      split at valid
      · cases valid
        exact .inl ⟨_, rfl⟩
      split at valid
      · cases valid
        exact .inl ⟨_, rfl⟩
      · cases valid

/-- What is known of a diff: the proposal was valid, and is all in it. -/
structure DiffOf (proposal : List AlarmDraft) (expectedRevision : Int64) (diff : ScheduleDiff) :
    Prop where
  valid : ProposalChecks proposal
  expectedRevision : diff.expectedRevision = expectedRevision
  perm : diff.proposedOrder.Perm proposal

theorem of_diffSchedule {diff : ScheduleDiff}
    (made : diffSchedule baseline proposal expectedRevision = .ok diff) :
    DiffOf proposal expectedRevision diff := by
  rw [diffSchedule] at made
  cases valid : validateProposal proposal with
  | error error =>
      rw [valid] at made
      cases made
  | ok =>
      obtain ⟨classified, passed, perm⟩ := classify_ok baseline proposal
      rw [valid] at made
      change (classify baseline proposal >>= _) = Except.ok diff at made
      rw [passed] at made
      cases made
      refine ⟨validateProposal_eq_ok.mp valid, rfl, ?_⟩
      refine List.Perm.trans ?_ perm
      have changed := (List.perm_insertionSort (fun a b => a.after.id ≤ b.after.id)
        classified.changed).map (·.after)
      exact ((List.perm_insertionSort _ classified.added).append changed).append
        (List.perm_insertionSort _ classified.unchanged)

/-- The proposed order of a diff is a valid proposal. -/
theorem DiffOf.proposedOrder_checks {diff : ScheduleDiff}
    (made : DiffOf proposal expectedRevision diff) : ProposalChecks diff.proposedOrder := by
  constructor
  · rw [made.perm.length_eq]
    exact made.valid.fits
  · exact ((made.perm.map (·.id)).nodup_iff).mpr made.valid.ids

end Diff

end DawnDock.App
