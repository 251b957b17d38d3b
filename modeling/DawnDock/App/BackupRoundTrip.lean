import DawnDock.App.BackupFlow
import DawnDock.App.DateRoundTrip

/-!
What an export writes, read back (`export_restores_iff`).

The maps of profiles and receipts read back with their times in UTC, those of drafts as they
are. A provenance is the exception: its constructor takes any texts and `fromMap` takes texts
within bounds, so an export with one beyond them cannot be parsed.
-/

namespace DawnDock.App

open Collect (of_bind_eq_ok bind_eq mapM_map_ok)

variable {δ : Type}

/-! ### Maps -/

/-- What `fromMap` asks of a provenance. -/
structure ImportProvenance.Bounded (provenance : ImportProvenance) : Prop where
  sourceEventId : IsBounded provenance.sourceEventId kMaxSourceEventIdBytes
  originLabel : IsBounded provenance.originLabel maxOriginLabelBytes

/-- The draft has no provenance, or one within bounds. -/
def AlarmDraft.Readable (draft : AlarmDraft) : Prop := ∀ p ∈ draft.provenance, p.Bounded

theorem boundedField_eq_ok {map : Entries δ} {key : String} {maximum : Nat} {text read : DartString}
    (found : index map (utf16 key) = .string text) :
    ImportProvenance.boundedField map key maximum = .ok read ↔
      IsBounded text maximum ∧ read = text := by
  rw [ImportProvenance.boundedField, found]
  dsimp only
  split
  · rename_i unbounded
    refine iff_of_false (fun read => by cases read) fun both => ?_
    exact not_unbounded.mpr both.1 unbounded
  · rename_i bounded
    constructor
    · rintro ⟨⟩
      exact ⟨not_unbounded.mp bounded, rfl⟩
    · rintro ⟨-, rfl⟩
      rfl

theorem ImportProvenance.fromMap_toMap {provenance read : ImportProvenance} :
    fromMap (provenance.toMap : Entries δ) = .ok read ↔ provenance.Bounded ∧ read = provenance := by
  have eventId : index (provenance.toMap : Entries δ) (utf16 "sourceEventId") =
      .string provenance.sourceEventId := rfl
  have label : index (provenance.toMap : Entries δ) (utf16 "originLabel") =
      .string provenance.originLabel := rfl
  unfold fromMap
  constructor
  · intro parsed
    obtain ⟨id, readId, parsed⟩ := of_bind_eq_ok parsed
    obtain ⟨origin, readLabel, same⟩ := of_bind_eq_ok parsed
    obtain ⟨idBounded, rfl⟩ := (boundedField_eq_ok eventId).mp readId
    obtain ⟨labelBounded, rfl⟩ := (boundedField_eq_ok label).mp readLabel
    cases same
    exact ⟨⟨idBounded, labelBounded⟩, rfl⟩
  · rintro ⟨bounded, rfl⟩
    refine bind_eq ((boundedField_eq_ok eventId).mpr ⟨bounded.sourceEventId, rfl⟩) ?_
    exact bind_eq ((boundedField_eq_ok label).mpr ⟨bounded.originLabel, rfl⟩) rfl

theorem castIntSet_sort (days : Finset Int64) :
    castIntSet (days.sort.map fun day => (.number (.int day) : Value δ)) = .ok days := by
  have read : (days.sort.map fun day => (.number (.int day) : Value δ)).mapM castInt =
      .ok (days.sort.map id) := mapM_map_ok fun _ _ => rfl
  rw [castIntSet]
  refine bind_eq read ?_
  rw [List.map_id]
  exact congrArg Except.ok (Finset.sort_toFinset days _)

namespace AlarmDraft

theorem create_valid (draft : AlarmDraft) : create draft.toAlarmFields = .ok draft := by
  unfold create
  split
  · rfl
  · rename_i error failed
    rw [draft.valid] at failed
    cases failed

theorem sourceNamed_name (source : DraftSource) :
    sourceNamed (.string source.name : Value δ) = .ok source := by
  cases source <;> rfl

theorem provenanceOf_toMap {draft : AlarmDraft} (readable : draft.Readable) :
    provenanceOf (draft.toMap : Entries δ) = .ok draft.provenance := by
  have found : index (draft.toMap : Entries δ) (utf16 "provenance") = draft.provenanceValue := rfl
  rw [provenanceOf, found, provenanceValue]
  cases held : draft.provenance with
  | none => rfl
  | some provenance =>
      dsimp only
      refine bind_eq rfl ?_
      exact bind_eq (ImportProvenance.fromMap_toMap.mpr ⟨readable provenance held, rfl⟩) rfl

/-- A draft reads back as itself. -/
theorem fromMap_toMap {draft : AlarmDraft} (readable : draft.Readable) :
    fromMap (draft.toMap : Entries δ) = .ok draft := by
  unfold fromMap
  refine bind_eq rfl ?_
  refine bind_eq (provenanceOf_toMap readable) ?_
  refine bind_eq rfl ?_
  refine bind_eq rfl ?_
  refine bind_eq rfl ?_
  refine bind_eq rfl ?_
  refine bind_eq rfl ?_
  refine bind_eq rfl ?_
  refine bind_eq (castIntSet_sort draft.days) ?_
  refine bind_eq rfl ?_
  refine bind_eq rfl ?_
  refine bind_eq rfl ?_
  refine bind_eq rfl ?_
  refine bind_eq (sourceNamed_name draft.source) ?_
  exact create_valid draft

end AlarmDraft

/-- A receipt as a backup has it: its times in UTC. -/
def SyncReceipt.inUtc (receipt : SyncReceipt) : SyncReceipt :=
  { receipt with
    nextAlarmUtc := receipt.nextAlarmUtc.toUtc
    receivedAtUtc := receipt.receivedAtUtc.toUtc }

theorem SyncReceipt.fromMap_toMap (localToUtc : Int → Int) (receipt : SyncReceipt) :
    fromMap localToUtc (receipt.toMap : Entries δ) = .ok receipt.inUtc := by
  have next : DateTime.tryParse localToUtc receipt.nextAlarmUtc.toUtc.toIso8601String =
      some receipt.nextAlarmUtc.toUtc := DateTime.tryParse_toIso8601String localToUtc rfl
  have received : DateTime.tryParse localToUtc receipt.receivedAtUtc.toUtc.toIso8601String =
      some receipt.receivedAtUtc.toUtc := DateTime.tryParse_toIso8601String localToUtc rfl
  unfold fromMap
  refine bind_eq (a := some receipt.nextAlarmUtc.toUtc.toIso8601String) rfl ?_
  refine bind_eq (a := some receipt.receivedAtUtc.toUtc.toIso8601String) rfl ?_
  rw [Option.getD_some, Option.getD_some, next, received]
  dsimp only
  refine bind_eq rfl ?_
  exact bind_eq rfl rfl

/-- A profile as a backup has it: its time in UTC. -/
def DeviceProfile.inUtc (profile : DeviceProfile) : DeviceProfile :=
  { profile with
    addedAtUtc := profile.addedAtUtc.map DateTime.toUtc
    valid := profile.valid }

theorem DeviceProfile.create_valid (profile : DeviceProfile) :
    create profile.toProfileFields = .ok profile := by
  unfold create
  split
  · rfl
  · rename_i error failed
    rw [profile.valid] at failed
    cases failed

theorem DeviceProfile.fromMap_toMap (localToUtc : Int → Int) (profile : DeviceProfile) :
    fromMap localToUtc (profile.toMap : Entries δ) = .ok profile.inUtc := by
  have identity : index (profile.toMap : Entries δ) (utf16 "identity") = .string profile.identity :=
    rfl
  have displayName : index (profile.toMap : Entries δ) (utf16 "displayName") =
      .string profile.displayName := rfl
  have note : noteOf (profile.toMap : Entries δ) = .string profile.note := rfl
  have added : addedAt localToUtc (index (profile.toMap : Entries δ) (utf16 "addedAtUtc")) =
      .ok (profile.addedAtUtc.map DateTime.toUtc) := by
    obtain ⟨⟨identity, displayName, note, addedAtUtc⟩, valid⟩ := profile
    cases addedAtUtc with
    | none => rfl
    | some added =>
        change addedAt localToUtc (.string added.toUtc.toIso8601String) = _
        rw [addedAt, DateTime.tryParse_toIso8601String localToUtc rfl]
        rfl
  rw [fromMap, identity, displayName, note]
  dsimp only
  refine bind_eq added ?_
  exact create_valid profile.inUtc

/-! ### Documents -/

theorem sortById_sortById (alarms : List AlarmDraft) :
    sortById (sortById alarms) = sortById alarms := by
  have idsTotal : Std.Total fun a b : DartString => a ≤ b := inferInstance
  have idsTrans : IsTrans DartString fun a b => a ≤ b := inferInstance
  have total : Std.Total fun a b : AlarmDraft => a.id ≤ b.id :=
    ⟨fun a b => idsTotal.total a.id b.id⟩
  have trans : IsTrans AlarmDraft fun a b => a.id ≤ b.id :=
    ⟨fun a b c => idsTrans.trans a.id b.id c.id⟩
  exact (List.pairwise_insertionSort _ alarms).insertionSort_eq

/-- What a backup of the stores holds. -/
def LiveStores.snapshot (live : LiveStores) (exportedAtUtc : DateTime) : CompanionBackup where
  exportedAtUtc
  deviceProfiles := live.profileStore.profiles.map DeviceProfile.inUtc
  drafts := live.draftSet.drafts
  knownRevision := live.scheduleStore.knownRevision
  committedAlarms := sortById live.scheduleStore.committed
  lastReceipt := live.scheduleStore.lastReceipt.map SyncReceipt.inUtc

/-- The drafts of an export that a parser has to read. -/
def LiveStores.Readable (live : LiveStores) : Prop :=
  ∀ draft ∈ live.draftSet.entries ++ live.scheduleStore.committed, draft.Readable

namespace CompanionBackup

variable {platform : Platform δ}

theorem throwing_ok {α : Type} {call : Except DartError α} {a : α} (returned : call = .ok a) :
    (throwing call : Except (Thrown δ) α) = .ok a := by
  rw [returned]
  rfl

theorem parseDraftsLoop_written {drafts : List AlarmDraft}
    (readable : ∀ draft ∈ drafts, draft.Readable) (distinct : (drafts.map (·.id)).Nodup)
    (path : DartString) (i : Nat) (ids : List DartString)
    (fresh : ∀ draft ∈ drafts, draft.id ∉ ids) :
    parseDraftsLoop path i ids (drafts.map fun draft => (.object draft.toMap : Value δ)) =
      .ok drafts := by
  induction drafts generalizing i ids with
  | nil => rfl
  | cons draft rest ih =>
      rw [List.forall_mem_cons] at readable fresh
      rw [List.map_cons, List.nodup_cons] at distinct
      rw [List.map_cons, parseDraftsLoop]
      refine bind_eq (throwing_ok (AlarmDraft.fromMap_toMap readable.1)) ?_
      rw [if_neg (fun seen => fresh.1 (List.contains_iff_mem.mp seen))]
      refine bind_eq (ih readable.2 distinct.2 (i + 1) (draft.id :: ids) ?_) rfl
      intro other mem seen
      rcases List.mem_cons.mp seen with same | seen
      · exact distinct.1 (List.mem_map.mpr ⟨other, mem, same⟩)
      · exact fresh.2 other mem seen

theorem parseProfiles_written {profiles : List DeviceProfile}
    (distinct : (profiles.map (·.identity)).Nodup) :
    parseProfiles platform (profiles.map fun profile => (.object profile.toMap : Value δ)) =
      .ok (profiles.map DeviceProfile.inUtc) := by
  have identities : ((profiles.map DeviceProfile.inUtc).map (·.identity)).Nodup := by
    rw [List.map_map]
    exact distinct
  unfold parseProfiles
  refine bind_eq (mapM_map_ok fun profile _ => throwing_ok ?_)
    (if_neg (not_not.mpr ?_))
  · exact bind_eq rfl (DeviceProfile.fromMap_toMap platform.localToUtc profile)
  · rw [dedup_length_eq_iff.mpr identities, List.length_map]

theorem parseReceipt_written {revision : Int64} {committed : List AlarmDraft}
    {receipt : Option SyncReceipt} (fits : ReceiptFits revision committed receipt) :
    parseReceipt platform revision committed (SyncReceipt.receiptValue receipt : Value δ) =
      .ok (receipt.map SyncReceipt.inUtc) := by
  cases receipt with
  | none => rfl
  | some receipt =>
      obtain ⟨applied, count⟩ := fits receipt rfl
      have read := SyncReceipt.fromMap_toMap (δ := δ) platform.localToUtc receipt
      refine bind_eq (throwing_ok (bind_eq rfl read)) ?_
      exact (if_neg (not_not.mpr applied)).trans (if_neg (not_not.mpr count))

variable {live : LiveStores}

theorem requireList_written {elements : List (Value δ)} {path : String} {maximum : Nat}
    (fits : elements.length ≤ maximum) :
    requireList (.array elements) path maximum = .ok elements :=
  if_neg (Nat.not_lt.mpr fits)

/-- The mirror in the document of an export. -/
def exportedMirror (live : LiveStores) : Entries δ :=
  [(utf16 "knownRevision", .number (.int live.scheduleStore.knownRevision)),
    (utf16 "committedAlarms", .array
      (live.scheduleStore.committed.map fun draft => .object draft.toMap)),
    (utf16 "lastReceipt", SyncReceipt.receiptValue live.scheduleStore.lastReceipt)]

/-- The document of an export. -/
def exported (live : LiveStores) (stamp : DateTime) : Entries δ :=
  document stamp live.profileStore.profiles live.draftSet.drafts live.scheduleStore.knownRevision
    live.scheduleStore.committed live.scheduleStore.lastReceipt

theorem drafts_checks (fit : live.Fits) : ProposalChecks live.draftSet.drafts :=
  sortById_checks ⟨fit.drafts, live.draftSet.distinct⟩

theorem parseModels_written (fit : live.Fits) (readable : live.Readable) {stamp : DateTime}
    (utc : stamp.isUtc = true) :
    parseModels platform stamp live.scheduleStore.knownRevision
      (live.profileStore.profiles.map fun profile => (.object profile.toMap : Value δ))
      (live.draftSet.drafts.map fun draft => .object draft.toMap)
      (live.scheduleStore.committed.map fun draft => .object draft.toMap)
      (SyncReceipt.receiptValue live.scheduleStore.lastReceipt) = .ok (live.snapshot stamp) := by
  unfold parseModels
  refine bind_eq (parseProfiles_written fit.profiles.identities) ?_
  refine bind_eq (a := live.draftSet.drafts) (parseDraftsLoop_written ?_
    (drafts_checks fit).ids _ 0 [] (fun _ _ => List.not_mem_nil)) ?_
  · intro draft mem
    exact readable draft (List.mem_append_left _ ((perm_sortById _).mem_iff.mp mem))
  refine bind_eq (a := live.scheduleStore.committed) (parseDraftsLoop_written ?_
    fit.mirror.committed.ids _ 0 [] (fun _ _ => List.not_mem_nil)) ?_
  · intro draft mem
    exact readable draft (List.mem_append_right _ mem)
  refine bind_eq (parseReceipt_written fit.mirror.receipt) ?_
  have same : stamp.toUtc = stamp := by
    cases stamp
    cases utc
    rfl
  rw [same, DraftSet.drafts, sortById_sortById]
  rfl

/-- The root of an export parses. -/
theorem parseRoot_exported (fit : live.Fits) (readable : live.Readable) {stamp : DateTime}
    (utc : stamp.isUtc = true) :
    parseRoot platform (exported live stamp : Entries δ) = .ok (live.snapshot stamp) := by
  have same : stamp.toUtc = stamp := by
    cases stamp
    cases utc
    rfl
  unfold parseRoot
  refine bind_eq (a := ()) rfl ?_
  refine bind_eq (a := some stamp.toUtc.toIso8601String) rfl ?_
  rw [same, Option.getD_some, DateTime.tryParse_toIso8601String platform.localToUtc utc]
  dsimp only
  unfold parseParts
  refine bind_eq (requireList_written (by rw [List.length_map]; exact fit.profiles.fits)) ?_
  refine bind_eq (requireList_written (by rw [List.length_map]; exact (drafts_checks fit).fits)) ?_
  change parseMirror platform stamp _ _ (exportedMirror live) = _
  have revision : index (exportedMirror live : Entries δ) (utf16 "knownRevision") =
      .number (.int live.scheduleStore.knownRevision) := rfl
  rw [parseMirror, if_neg (by exact Bool.false_ne_true)]
  rw [revision]
  dsimp only
  rw [if_neg (Int64.not_lt.mpr fit.mirror.revision)]
  refine bind_eq (requireList_written (by rw [List.length_map]; exact fit.mirror.committed.fits)) ?_
  rw [converting]
  exact congrArg (Except.mapError _) (parseModels_written fit readable utc)

section Exports

variable [Double δ] {now : DateTime} {summary : BackupSummary} {text : DartString}

/-- What an export that returns has done. -/
structure Exports (platform : Platform δ) (live : LiveStores) (now : DateTime)
    (summary : BackupSummary) (text : DartString) : Prop where
  scanned : requireReservedKeyScan platform []
    (.object (exported live now.toUtc) : Value δ) = .ok ()
  written : encodeValue (some (utf16 "  ")) 0
    (.object (exported live now.toUtc) : Value δ) = some text
  fits : utf8Length text ≤ kMaxBackupTextBytes
  summary : summary = .fromBackup (live.snapshot now.toUtc)

theorem of_exportBackup
    (exports : BackupCoordinator.exportBackup platform live now = .ok (summary, text)) :
    Exports platform live now summary text := by
  unfold BackupCoordinator.exportBackup at exports
  obtain ⟨encoded, encodes, exports⟩ := of_bind_eq_ok exports
  split at exports
  · cases exports
  rename_i fits
  cases exports
  unfold encode at encodes
  split at encodes
  · cases encodes
  split at encodes
  · cases encodes
  obtain ⟨_, scanned, encodes⟩ := of_bind_eq_ok encodes
  split at encodes
  · rename_i text written
    cases encodes
    refine ⟨scanned, written, Nat.not_lt.mp fits, ?_⟩
    simp [BackupSummary.fromBackup, LiveStores.snapshot, (perm_sortById _).length_eq]
  · cases encodes

omit [Double δ] in
/-- A provenance that the parser has read is within bounds. -/
theorem readable_of_parse (decodes : platform.jsonDecode text = .ok (.object (exported live now)))
    {backup : CompanionBackup} (parsed : parse platform text = .ok backup) : live.Readable := by
  obtain ⟨root, reaches, accepted⟩ := of_parse parsed
  have same : root = exported live now := by
    have both := reaches.decodes.symm.trans decodes
    cases both
    rfl
  subst same
  have drafts : ∀ draft ∈ live.draftSet.drafts, DraftMap (draft.toMap : Entries δ) :=
    fun draft mem => accepted.drafts _ _ rfl (List.mem_map.mpr ⟨draft, mem, rfl⟩)
  have alarms : ∀ draft ∈ live.scheduleStore.committed, DraftMap (draft.toMap : Entries δ) :=
    fun draft mem => accepted.alarms _ _ _ rfl rfl (List.mem_map.mpr ⟨draft, mem, rfl⟩)
  intro draft mem p carried
  have read : DraftMap (draft.toMap : Entries δ) := by
    rcases List.mem_append.mp mem with own | committed
    · exact drafts draft ((perm_sortById _).mem_iff.mpr own)
    · exact alarms draft committed
  have found : index (draft.toMap : Entries δ) (utf16 "provenance") = .object p.toMap := by
    change draft.provenanceValue = _
    rw [AlarmDraft.provenanceValue, Option.mem_def.mp carried]
  obtain ⟨other, parsed⟩ := read.provenance _ found
  exact (ImportProvenance.fromMap_toMap.mp parsed).1

/-- Where the decoder reads what the encoder wrote: an export can be parsed if and only if the
provenances in the stores are within bounds. It is then a backup of the stores, with the
summary that the export returned, and restores what they held: the profiles and the receipt
with their times in UTC, the drafts, and the committed alarms in the order of their ids. -/
theorem export_restores_iff (fit : live.Fits)
    (exports : BackupCoordinator.exportBackup platform live now = .ok (summary, text))
    (decodes : ∀ text, encodeValue (some (utf16 "  ")) 0
      (.object (exported live now.toUtc) : Value δ) = some text →
        platform.jsonDecode text = .ok (.object (exported live now.toUtc))) :
    ((∃ backup, parse platform text = .ok backup) ↔
      ∀ draft ∈ live.draftSet.entries ++ live.scheduleStore.committed, ∀ p ∈ draft.provenance,
        IsBounded p.sourceEventId kMaxSourceEventIdBytes ∧
          IsBounded p.originLabel ImportProvenance.maxOriginLabelBytes) ∧
    ∀ backup, parse platform text = .ok backup →
      summary = .fromBackup backup ∧ backup.exportedAtUtc = now.toUtc ∧
        backup.restored.profileStore.profiles =
          live.profileStore.profiles.map DeviceProfile.inUtc ∧
        backup.restored.draftSet.drafts = live.draftSet.drafts ∧
        backup.restored.scheduleStore = { live.scheduleStore with
          committed := sortById live.scheduleStore.committed
          lastReceipt := live.scheduleStore.lastReceipt.map SyncReceipt.inUtc } := by
  obtain ⟨scanned, written, fits, same⟩ := of_exportBackup exports
  have decoded := decodes text written
  have parses (readable : live.Readable) : parse platform text = .ok (live.snapshot now.toUtc) := by
    rw [parse, if_neg (Nat.not_lt.mpr fits), decoded]
    exact bind_eq scanned (parseRoot_exported fit readable rfl)
  have readable_iff : live.Readable ↔
      ∀ draft ∈ live.draftSet.entries ++ live.scheduleStore.committed, ∀ p ∈ draft.provenance,
        IsBounded p.sourceEventId kMaxSourceEventIdBytes ∧
          IsBounded p.originLabel ImportProvenance.maxOriginLabelBytes := by
    constructor
    · intro readable draft mem p carried
      obtain ⟨sourceEventId, originLabel⟩ := readable draft mem p carried
      exact ⟨sourceEventId, originLabel⟩
    · intro bounded draft mem p carried
      obtain ⟨sourceEventId, originLabel⟩ := bounded draft mem p carried
      exact ⟨sourceEventId, originLabel⟩
  refine ⟨?_, ?_⟩
  · rw [← readable_iff]
    exact ⟨fun found => found.elim fun _ parsed => readable_of_parse decoded parsed,
      fun readable => ⟨_, parses readable⟩⟩
  · intro backup parsed
    obtain rfl := Except.ok.inj (parsed.symm.trans (parses (readable_of_parse decoded parsed)))
    have entries : (DraftSet.replaceAll live.draftSet.drafts).entries = live.draftSet.drafts :=
      DraftSet.replaceAll_entries (drafts_checks fit).ids
    refine ⟨same, rfl, rfl, ?_, rfl⟩
    change sortById (DraftSet.replaceAll live.draftSet.drafts).entries = _
    rw [entries]
    exact sortById_sortById _

end Exports

/-- Stores with a draft whose event has no id. -/
def unnamedEvent : LiveStores :=
  { LiveStores.empty with
    draftSet := { entries := [imported []], distinct := List.nodup_singleton _ } }

/-- The text of their export. -/
def unnamedEventText (now : DateTime) : DartString :=
  (encodeValue (some (utf16 "  ")) 0
    (.object (exported unnamedEvent now.toUtc) : Value Empty)).getD []

/-- They are exported, and the export cannot be parsed. -/
theorem export_restores_iff_unnamedEvent :
    let now : DateTime :=
      { microsecondsSinceEpoch := 0, isUtc := true, lower := by decide, upper := by decide }
    let platform : Platform Empty :=
      decoding (unnamedEventText now) (.object (exported unnamedEvent now.toUtc))
    ∃ summary text, BackupCoordinator.exportBackup platform unnamedEvent now =
        .ok (summary, text) ∧
      ¬ ∃ backup, parse platform text = .ok backup := by
  intro now platform
  obtain ⟨⟨summary, text⟩, exports⟩ := @of_isOk Empty _
    (BackupCoordinator.exportBackup platform unnamedEvent now) (by decide +kernel)
  have fit : unnamedEvent.Fits :=
    { LiveStores.fits_empty with drafts := show 1 ≤ kMaxDrafts by decide }
  have decodes : ∀ text, encodeValue (some (utf16 "  ")) 0
      (.object (exported unnamedEvent now.toUtc) : Value Empty) = some text →
        platform.jsonDecode text = .ok (.object (exported unnamedEvent now.toUtc)) := by
    intro text written
    have same : unnamedEventText now = text := by
      rw [unnamedEventText, written, Option.getD_some]
    rw [← same]
    exact decoding_jsonDecode _ _
  refine ⟨summary, text, exports, ?_⟩
  rw [(export_restores_iff fit exports decodes).1]
  intro bounded
  have drafted := List.mem_append_left unnamedEvent.scheduleStore.committed
    (List.mem_singleton_self (imported []))
  exact (bounded (imported []) drafted _ rfl).1.1 rfl

end CompanionBackup

end DawnDock.App
