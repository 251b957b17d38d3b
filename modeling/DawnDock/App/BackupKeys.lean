import DawnDock.App.BackupErrors
import DawnDock.Library.Collect

/-!
Which keys a backup may have (`accepted_keys`).

The keys of the root and of the mirror are exact and no key is reserved. The other
objects of an accepted backup have the keys that their class needs; what they have besides
is not looked at.
-/

namespace DawnDock.App

open Collect (of_bind_eq_ok)

/-- The kinds of objects in a backup. -/
inductive ObjectKind where
  | root | mirror | profile | draft | alarm | provenance | receipt
deriving DecidableEq

namespace ObjectKind

/-- The keys that are needed to build the object. -/
def needed : ObjectKind → List DartString
  | .root => rootKeys
  | .mirror => mirrorKeys
  | .profile => [utf16 "identity", utf16 "displayName"]
  | .draft | .alarm =>
    [utf16 "id", utf16 "label", utf16 "enabled", utf16 "localHour", utf16 "localMinute",
      utf16 "days", utf16 "timezone", utf16 "snoozeMinutes", utf16 "volume", utf16 "sound",
      utf16 "source"]
  | .provenance => [utf16 "sourceEventId", utf16 "originLabel"]
  | .receipt =>
    [utf16 "appliedRevision", utf16 "alarmCount", utf16 "nextAlarmUtc", utf16 "receivedAtUtc"]

/-- The keys that have a value of their own where they are missing. -/
def optional : ObjectKind → List DartString
  | .profile => [utf16 "note", utf16 "addedAtUtc"]
  | .draft | .alarm => [utf16 "provenance"]
  | .root | .mirror | .provenance | .receipt => []

/-- The keys that `encode` writes. -/
def keys (kind : ObjectKind) : List DartString := kind.needed ++ kind.optional

end ObjectKind

/-- The objects of a backup, by what they stand for. -/
inductive BackupObject {δ : Type} (root : Entries δ) : ObjectKind → Entries δ → Prop where
  | root : BackupObject root .root root
  | mirror {mirror : Entries δ} : index root (utf16 "scheduleMirror") = .object mirror →
      BackupObject root .mirror mirror
  | profile {raw : List (Value δ)} {entries : Entries δ} :
      index root (utf16 "deviceProfiles") = .array raw → .object entries ∈ raw →
      BackupObject root .profile entries
  | draft {raw : List (Value δ)} {entries : Entries δ} :
      index root (utf16 "drafts") = .array raw → .object entries ∈ raw →
      BackupObject root .draft entries
  | alarm {mirror : Entries δ} {raw : List (Value δ)} {entries : Entries δ} :
      index root (utf16 "scheduleMirror") = .object mirror →
      index mirror (utf16 "committedAlarms") = .array raw → .object entries ∈ raw →
      BackupObject root .alarm entries
  | draftProvenance {draft entries : Entries δ} : BackupObject root .draft draft →
      index draft (utf16 "provenance") = .object entries → BackupObject root .provenance entries
  | alarmProvenance {alarm entries : Entries δ} : BackupObject root .alarm alarm →
      index alarm (utf16 "provenance") = .object entries → BackupObject root .provenance entries
  | receipt {mirror entries : Entries δ} :
      index root (utf16 "scheduleMirror") = .object mirror →
      index mirror (utf16 "lastReceipt") = .object entries → BackupObject root .receipt entries

variable {δ : Type}

/-- The document that `encode` writes has those keys in all of its objects. -/
theorem document_keys {exportedAtUtc : DateTime} {deviceProfiles : List DeviceProfile}
    {drafts committedAlarms : List AlarmDraft} {knownRevision : Int64}
    {lastReceipt : Option SyncReceipt} {kind : ObjectKind} {entries : Entries δ}
    (object : BackupObject (CompanionBackup.document exportedAtUtc deviceProfiles drafts
      knownRevision committedAlarms lastReceipt) kind entries) : keysOf entries = kind.keys := by
  have profile {entries : Entries δ} (mem : .object entries ∈
      deviceProfiles.map fun profile => (.object profile.toMap : Value δ)) :
      keysOf entries = ObjectKind.profile.keys := by
    obtain ⟨profile, -, same⟩ := List.mem_map.mp mem
    cases same
    rfl
  have draft {drafts : List AlarmDraft} {entries : Entries δ} (mem : .object entries ∈
      drafts.map fun draft => (.object draft.toMap : Value δ)) :
      ∃ draft ∈ drafts, entries = draft.toMap := by
    obtain ⟨draft, listed, same⟩ := List.mem_map.mp mem
    cases same
    exact ⟨draft, listed, rfl⟩
  have provenance {draft : AlarmDraft} {entries : Entries δ}
      (found : index (draft.toMap : Entries δ) (utf16 "provenance") = .object entries) :
      keysOf entries = ObjectKind.provenance.keys := by
    change AlarmDraft.provenanceValue draft = Json.object entries at found
    unfold AlarmDraft.provenanceValue at found
    split at found
    · cases found
      rfl
    · cases found
  cases object with
  | root => rfl
  | mirror found =>
      cases found
      rfl
  | profile array mem =>
      cases array
      exact profile mem
  | draft array mem =>
      cases array
      obtain ⟨draft, -, rfl⟩ := draft mem
      rfl
  | alarm found array mem =>
      cases found
      cases array
      obtain ⟨draft, -, rfl⟩ := draft mem
      rfl
  | draftProvenance object found =>
      cases object with
      | draft array mem =>
          cases array
          obtain ⟨draft, -, rfl⟩ := draft mem
          exact provenance found
  | alarmProvenance object found =>
      cases object with
      | alarm mirror array mem =>
          cases mirror
          cases array
          obtain ⟨draft, -, rfl⟩ := draft mem
          exact provenance found
  | receipt found last =>
      cases found
      change SyncReceipt.receiptValue lastReceipt = Json.object entries at last
      unfold SyncReceipt.receiptValue at last
      split at last
      · cases last
        rfl
      · cases last

/-! ### Needed keys -/

section Needed

variable {map : Entries δ} {key : DartString}

theorem mem_keysOf_of_index (present : index map key ≠ .null) : key ∈ keysOf map := by
  by_contra absent
  rw [index, lookup_eq_none absent] at present
  exact present rfl

theorem mem_keysOf_of_containsKey (contained : containsKey map key = true) :
    key ∈ keysOf map := by
  by_contra absent
  rw [containsKey, lookup_eq_none absent] at contained
  cases contained

theorem mem_keysOf_of_need {kind name : String} {value : Value δ}
    (found : need kind map name = .ok value) : utf16 name ∈ keysOf map := by
  rw [need] at found
  split at found
  · rename_i contained
    exact mem_keysOf_of_containsKey contained
  · cases found

theorem mem_keysOf_of_field {α : Type} {kind name : String} {cast : Value δ → Except DartError α}
    {result : α} (read : (need kind map name >>= cast) = .ok result) :
    utf16 name ∈ keysOf map := by
  obtain ⟨value, found, -⟩ := of_bind_eq_ok read
  exact mem_keysOf_of_need found

theorem mem_keysOf_of_boundedField {name : String} {maximum : Nat} {text : DartString}
    (read : ImportProvenance.boundedField map name maximum = .ok text) :
    utf16 name ∈ keysOf map := by
  apply mem_keysOf_of_index
  intro null
  rw [ImportProvenance.boundedField, null] at read
  cases read

theorem provenance_needed {provenance : ImportProvenance}
    (read : ImportProvenance.fromMap map = .ok provenance) :
    ∀ key ∈ ObjectKind.provenance.needed, key ∈ keysOf map := by
  obtain ⟨sourceEventId, event, read⟩ := of_bind_eq_ok read
  obtain ⟨originLabel, label, -⟩ := of_bind_eq_ok read
  intro key mem
  rcases List.mem_pair.mp mem with rfl | rfl
  · exact mem_keysOf_of_boundedField event
  · exact mem_keysOf_of_boundedField label

/-- What is known of the map of a draft. -/
structure DraftMap (map : Entries δ) : Prop where
  needed : ∀ key ∈ ObjectKind.draft.needed, key ∈ keysOf map
  provenance : ∀ entries, index map (utf16 "provenance") = .object entries →
    ∃ provenance, ImportProvenance.fromMap entries = .ok provenance

theorem draft_map {draft : AlarmDraft} (read : AlarmDraft.fromMap map = .ok draft) :
    DraftMap map := by
  obtain ⟨sourceName, source, read⟩ := of_bind_eq_ok read
  obtain ⟨provenance, imported, read⟩ := of_bind_eq_ok read
  obtain ⟨days, days_found, read⟩ := of_bind_eq_ok read
  split at read
  · obtain ⟨_, id, read⟩ := of_bind_eq_ok read
    obtain ⟨_, label, read⟩ := of_bind_eq_ok read
    obtain ⟨_, enabled, read⟩ := of_bind_eq_ok read
    obtain ⟨_, localHour, read⟩ := of_bind_eq_ok read
    obtain ⟨_, localMinute, read⟩ := of_bind_eq_ok read
    obtain ⟨_, -, read⟩ := of_bind_eq_ok read
    obtain ⟨_, timezone, read⟩ := of_bind_eq_ok read
    obtain ⟨_, snoozeMinutes, read⟩ := of_bind_eq_ok read
    obtain ⟨_, volume, read⟩ := of_bind_eq_ok read
    obtain ⟨_, sound, -⟩ := of_bind_eq_ok read
    constructor
    · intro key mem
      simp only [ObjectKind.needed, List.mem_cons, List.not_mem_nil, or_false] at mem
      rcases mem with rfl | rfl | rfl | rfl | rfl | rfl | rfl | rfl | rfl | rfl | rfl
      · exact mem_keysOf_of_field id
      · exact mem_keysOf_of_field label
      · exact mem_keysOf_of_field enabled
      · exact mem_keysOf_of_field localHour
      · exact mem_keysOf_of_field localMinute
      · exact mem_keysOf_of_need days_found
      · exact mem_keysOf_of_field timezone
      · exact mem_keysOf_of_field snoozeMinutes
      · exact mem_keysOf_of_field volume
      · exact mem_keysOf_of_field sound
      · exact mem_keysOf_of_need source
    · intro entries object
      unfold AlarmDraft.provenanceOf at imported
      rw [object] at imported
      obtain ⟨found, cast, imported⟩ := of_bind_eq_ok imported
      cases cast
      obtain ⟨value, parsed, -⟩ := of_bind_eq_ok imported
      exact ⟨value, parsed⟩
  · cases read

theorem receipt_needed {localToUtc : Int → Int} {receipt : SyncReceipt}
    (read : SyncReceipt.fromMap localToUtc map = .ok receipt) :
    ∀ key ∈ ObjectKind.receipt.needed, key ∈ keysOf map := by
  obtain ⟨_, next, read⟩ := of_bind_eq_ok read
  obtain ⟨_, received, read⟩ := of_bind_eq_ok read
  split at read
  · obtain ⟨_, appliedRevision, read⟩ := of_bind_eq_ok read
    obtain ⟨_, alarmCount, -⟩ := of_bind_eq_ok read
    intro key mem
    simp only [ObjectKind.needed, List.mem_cons, List.not_mem_nil, or_false] at mem
    rcases mem with rfl | rfl | rfl | rfl
    · exact mem_keysOf_of_field appliedRevision
    · exact mem_keysOf_of_field alarmCount
    · exact mem_keysOf_of_field next
    · exact mem_keysOf_of_field received
  · cases read

theorem profile_needed {localToUtc : Int → Int} {profile : DeviceProfile}
    (read : DeviceProfile.fromMap localToUtc map = .ok profile) :
    ∀ key ∈ ObjectKind.profile.needed, key ∈ keysOf map := by
  unfold DeviceProfile.fromMap at read
  split at read
  · rename_i identity displayName note identified named noted
    intro key mem
    rcases List.mem_pair.mp mem with rfl | rfl
    · exact mem_keysOf_of_index (by rw [identified]; exact nofun)
    · exact mem_keysOf_of_index (by rw [named]; exact nofun)
  · cases read

end Needed

/-! ### Accepted backups -/

namespace CompanionBackup

section Accepted

variable {platform : Platform δ}

theorem of_throwing {α : Type} {call : Except DartError α} {value : α}
    (returned : (throwing call : Except (Thrown δ) α) = .ok value) : call = .ok value := by
  cases call with
  | error error => cases returned
  | ok result =>
      cases returned
      rfl

theorem of_converting {α : Type} {call : Except (Thrown δ) α} {value : α}
    (returned : converting call = .ok value) : call = .ok value := by
  cases call with
  | error thrown => cases returned
  | ok result =>
      cases returned
      rfl

theorem of_requireList {value : Value δ} {path : String} {maximum : Nat} {raw : List (Value δ)}
    (required : requireList value path maximum = .ok raw) : value = .array raw := by
  unfold requireList at required
  split at required
  · split at required
    · cases required
    · cases required
      rfl
  · cases required

theorem of_parseDraftsLoop {path : DartString} {i : Nat} {ids : List DartString}
    {raw : List (Value δ)} {drafts : List AlarmDraft}
    (parsed : parseDraftsLoop path i ids raw = .ok drafts) :
    ∀ entries, .object entries ∈ raw → DraftMap entries := by
  induction raw generalizing i ids drafts with
  | nil => exact fun _ mem => absurd mem List.not_mem_nil
  | cons entry rest ih =>
      cases entry with
      | object map =>
          rw [parseDraftsLoop] at parsed
          obtain ⟨draft, read, parsed⟩ := of_bind_eq_ok parsed
          split at parsed
          · cases parsed
          obtain ⟨others, later, -⟩ := of_bind_eq_ok parsed
          intro entries mem
          rcases List.mem_cons.mp mem with same | behind
          · cases same
            exact draft_map (of_throwing read)
          · exact ih later entries behind
      | _ => cases parsed

theorem of_parseProfiles {raw : List (Value δ)} {profiles : List DeviceProfile}
    (parsed : parseProfiles platform raw = .ok profiles) : ∀ entries, .object entries ∈ raw →
      ∃ profile, DeviceProfile.fromMap platform.localToUtc entries = .ok profile := by
  unfold parseProfiles at parsed
  obtain ⟨found, mapped, -⟩ := of_bind_eq_ok parsed
  intro entries mem
  obtain ⟨profile, -, read⟩ := Collect.exists_of_mem_left (Collect.all_of_mapM mapped) mem
  exact ⟨profile, of_throwing read⟩

theorem of_parseReceipt {knownRevision : Int64} {committed : List AlarmDraft}
    {entries : Entries δ} {receipt : Option SyncReceipt}
    (parsed : parseReceipt platform knownRevision committed (.object entries) = .ok receipt) :
    ∃ found, SyncReceipt.fromMap platform.localToUtc entries = .ok found := by
  obtain ⟨found, read, -⟩ := of_bind_eq_ok parsed
  exact ⟨found, of_throwing read⟩

/-- What is known of the root of an accepted backup. -/
structure AcceptedRoot (platform : Platform δ) (root : Entries δ) : Prop where
  keys : keySetMatches root rootKeys = true
  mirror : ∀ mirror, index root (utf16 "scheduleMirror") = .object mirror →
    keySetMatches mirror mirrorKeys = true
  profiles : ∀ raw entries, index root (utf16 "deviceProfiles") = .array raw →
    .object entries ∈ raw →
    ∃ profile, DeviceProfile.fromMap platform.localToUtc entries = .ok profile
  drafts : ∀ raw entries, index root (utf16 "drafts") = .array raw → .object entries ∈ raw →
    DraftMap entries
  alarms : ∀ mirror raw entries, index root (utf16 "scheduleMirror") = .object mirror →
    index mirror (utf16 "committedAlarms") = .array raw → .object entries ∈ raw → DraftMap entries
  receipt : ∀ mirror entries, index root (utf16 "scheduleMirror") = .object mirror →
    index mirror (utf16 "lastReceipt") = .object entries →
    ∃ receipt, SyncReceipt.fromMap platform.localToUtc entries = .ok receipt

theorem of_parseParts {exportedAt : DateTime} {root : Entries δ} {backup : CompanionBackup}
    (keys : keySetMatches root rootKeys = true)
    (parsed : parseParts platform exportedAt root = .ok backup) : AcceptedRoot platform root := by
  unfold parseParts at parsed
  obtain ⟨profilesRaw, profilesListed, parsed⟩ := of_bind_eq_ok parsed
  obtain ⟨draftsRaw, draftsListed, parsed⟩ := of_bind_eq_ok parsed
  have profilesArray := of_requireList profilesListed
  have draftsArray := of_requireList draftsListed
  split at parsed
  · rename_i mirror mirrorObject
    unfold parseMirror at parsed
    split at parsed
    · cases parsed
    rename_i mirrorKeysMatch
    split at parsed
    · split at parsed
      · cases parsed
      obtain ⟨committedRaw, committedListed, parsed⟩ := of_bind_eq_ok parsed
      have committedArray := of_requireList committedListed
      have models := of_converting parsed
      unfold parseModels at models
      obtain ⟨deviceProfiles, profiles, models⟩ := of_bind_eq_ok models
      obtain ⟨drafts, draftsParsed, models⟩ := of_bind_eq_ok models
      obtain ⟨committed, committedParsed, models⟩ := of_bind_eq_ok models
      obtain ⟨receipt, receiptParsed, -⟩ := of_bind_eq_ok models
      constructor
      · exact keys
      · intro other object
        rw [mirrorObject] at object
        cases object
        rw [Bool.not_eq_true', Bool.not_eq_false] at mirrorKeysMatch
        exact mirrorKeysMatch
      · intro raw entries array mem
        rw [profilesArray] at array
        cases array
        exact of_parseProfiles profiles entries mem
      · intro raw entries array mem
        rw [draftsArray] at array
        cases array
        exact of_parseDraftsLoop draftsParsed entries mem
      · intro other raw entries object array mem
        rw [mirrorObject] at object
        cases object
        rw [committedArray] at array
        cases array
        exact of_parseDraftsLoop committedParsed entries mem
      · intro other entries object last
        rw [mirrorObject] at object
        cases object
        rw [last] at receiptParsed
        exact of_parseReceipt receiptParsed
    · cases parsed
  · cases parsed

/-- An accepted text reaches its export time, and all of its objects are read. -/
theorem of_parse {text : DartString} {backup : CompanionBackup}
    (parsed : parse platform text = .ok backup) :
    ∃ root, ReachesExportTime platform text root ∧ AcceptedRoot platform root := by
  unfold parse at parsed
  split at parsed
  · cases parsed
  rename_i fits
  split at parsed
  · cases parsed
  rename_i decoded decodes
  obtain ⟨_, scanned, parsed⟩ := of_bind_eq_ok parsed
  cases decoded with
  | object root =>
      change parseRoot platform root = .ok backup at parsed
      unfold parseRoot at parsed
      obtain ⟨_, checked, parsed⟩ := of_bind_eq_ok parsed
      obtain ⟨exportedText, -, parsed⟩ := of_bind_eq_ok parsed
      split at parsed
      · have keys : keySetMatches root rootKeys = true := by
          unfold checkRoot at checked
          split at checked
          · cases checked
          · rename_i keys
            rw [Bool.not_eq_true', Bool.not_eq_false] at keys
            exact keys
        exact ⟨root, ⟨Nat.not_lt.mp fits, decodes, scanned, checked⟩, of_parseParts keys parsed⟩
      · cases parsed
  | _ => cases parsed

/-! ### The keys of an accepted backup -/

theorem keySetMatches_exact {map : Entries δ} {required : List DartString}
    (distinct : required.Nodup) (matched : keySetMatches map required = true) :
    ∀ key, key ∈ keysOf map ↔ key ∈ required := by
  rw [keySetMatches, Bool.and_eq_true, beq_iff_eq, List.all_eq_true] at matched
  obtain ⟨count, contained⟩ := matched
  have subset : required ⊆ (keysOf map).dedup := by
    intro key mem
    exact List.mem_dedup.mpr (List.contains_iff_mem.mp (contained key mem))
  have perm : required.Perm (keysOf map).dedup :=
    (List.subperm_of_subset distinct subset).perm_of_length_le (le_of_eq count)
  intro key
  rw [perm.mem_iff, List.mem_dedup]

/-- Every object of an accepted backup has the keys that its class needs. -/
theorem AcceptedRoot.needed {root : Entries δ} (accepted : AcceptedRoot platform root)
    {kind : ObjectKind} {entries : Entries δ} (object : BackupObject root kind entries) :
    ∀ key ∈ kind.needed, key ∈ keysOf entries := by
  induction object with
  | root =>
      intro key mem
      exact (keySetMatches_exact (by decide +kernel) accepted.keys key).mpr mem
  | mirror found =>
      intro key mem
      exact (keySetMatches_exact (by decide +kernel) (accepted.mirror _ found) key).mpr mem
  | profile array mem =>
      obtain ⟨profile, read⟩ := accepted.profiles _ _ array mem
      exact profile_needed read
  | draft array mem => exact (accepted.drafts _ _ array mem).needed
  | alarm found array mem => exact (accepted.alarms _ _ _ found array mem).needed
  | draftProvenance draft found =>
      cases draft with
      | draft array mem =>
          obtain ⟨provenance, read⟩ := (accepted.drafts _ _ array mem).provenance _ found
          exact provenance_needed read
  | alarmProvenance alarm found =>
      cases alarm with
      | alarm object array mem =>
          obtain ⟨provenance, read⟩ := (accepted.alarms _ _ _ object array mem).provenance _ found
          exact provenance_needed read
  | receipt found last =>
      obtain ⟨receipt, read⟩ := accepted.receipt _ _ found last
      exact receipt_needed read

/-- The object has no unknown key, and none of the keys that may be missing is. -/
structure Complete (kind : ObjectKind) (entries : Entries δ) : Prop where
  known : ∀ key ∈ keysOf entries, key ∈ kind.keys
  optional : ∀ key ∈ kind.optional, key ∈ keysOf entries

/-- In an accepted backup no key is reserved; and all objects have exactly the keys that
`encode` writes if and only if those below the mirror have no unknown key and lack no
optional one. -/
theorem accepted_keys {text : DartString} {backup : CompanionBackup}
    (parsed : parse platform text = .ok backup) :
    ∃ root, platform.jsonDecode text = .ok (.object root) ∧
      (∀ key ∈ allKeys (.object root), ∀ token ∈ kReservedKeyTokens,
        ¬ token <:+: platform.toLowerCase key) ∧
      ((∀ kind entries, BackupObject root kind entries →
          ∀ key, key ∈ keysOf entries ↔ key ∈ kind.keys) ↔
        ∀ kind entries, kind ≠ .root → kind ≠ .mirror → BackupObject root kind entries →
          Complete kind entries) := by
  obtain ⟨root, reaches, accepted⟩ := of_parse parsed
  refine ⟨root, reaches.decodes, ?_, ?_⟩
  · intro key mem token listed contained
    have free := (scan_eq_ok platform [] (.object root)).mp reaches.scanned key mem
    rw [reservedKey, List.any_eq_false] at free
    exact free token listed (decide_eq_true contained)
  constructor
  · intro exactly kind entries _ _ object
    constructor
    · intro key mem
      exact (exactly kind entries object key).mp mem
    · intro key mem
      exact (exactly kind entries object key).mpr (List.mem_append_right _ mem)
  · intro complete kind entries object key
    by_cases top : kind = .root ∨ kind = .mirror
    · have shape : keySetMatches entries kind.keys = true ∧ kind.keys.Nodup := by
        rcases top with rfl | rfl
        · cases object with
          | root => exact ⟨accepted.keys, by decide +kernel⟩
        · cases object with
          | mirror found => exact ⟨accepted.mirror _ found, by decide +kernel⟩
      exact keySetMatches_exact shape.2 shape.1 key
    · rw [not_or] at top
      have whole := complete kind entries top.1 top.2 object
      constructor
      · exact whole.known key
      · intro mem
        rcases List.mem_append.mp mem with needed | optional
        · exact accepted.needed object key needed
        · exact whole.optional key optional

end Accepted

/-- A document with one profile and more members of it. -/
def profileDocument (more : Entries Empty) : Entries Empty :=
  [(utf16 "format", .string kBackupFormat), (utf16 "version", .number (.int kBackupVersion)),
    (utf16 "exportedAtUtc", .string (utf16 "2026-03-08T06:30:00.000Z")),
    (utf16 "deviceProfiles", .array [.object
      ([(utf16 "identity", .string (utf16 "a")), (utf16 "displayName", .string (utf16 "a"))] ++
        more)]),
    (utf16 "drafts", .array []),
    (utf16 "scheduleMirror", .object
      [(utf16 "knownRevision", .number (.int 0)), (utf16 "committedAlarms", .array []),
        (utf16 "lastReceipt", .null)])]

/-- Its text, with the text of those members. -/
def profileText (more : String) : DartString :=
  utf16 ("\x7b\"format\":\"dawndock-companion-backup\",\"version\":1," ++
    "\"exportedAtUtc\":\"2026-03-08T06:30:00.000Z\",\"deviceProfiles\":[\x7b\"identity\":\"a\"," ++
    "\"displayName\":\"a\"" ++ more ++ "\x7d],\"drafts\":[],\"scheduleMirror\":\x7b" ++
    "\"knownRevision\":0,\"committedAlarms\":[],\"lastReceipt\":null\x7d\x7d")

theorem of_isOk {α : Type} {call : Except (Thrown δ) α} (succeeds : call.isOk = true) :
    ∃ value, call = .ok value := by
  cases call with
  | error thrown => cases succeeds
  | ok value => exact ⟨value, rfl⟩

/-- The missing members of the profile. -/
def restOfProfile : Entries Empty := [(utf16 "note", .string []), (utf16 "addedAtUtc", .null)]

def restText : String := ",\"note\":\"\",\"addedAtUtc\":null"

theorem accepted_keys_profile :
    ∃ backup, parse (decoding (profileText restText) (.object (profileDocument restOfProfile)))
        (profileText restText) = .ok backup ∧
      ∃ root, (decoding (profileText restText)
          (.object (profileDocument restOfProfile))).jsonDecode (profileText restText) =
            .ok (.object root) ∧
        ((∀ kind entries, BackupObject root kind entries →
            ∀ key, key ∈ keysOf entries ↔ key ∈ kind.keys) ↔
          ∀ kind entries, kind ≠ .root → kind ≠ .mirror → BackupObject root kind entries →
            Complete kind entries) := by
  obtain ⟨backup, parsed⟩ := @of_isOk Empty _ (parse (decoding (profileText restText)
    (.object (profileDocument restOfProfile))) (profileText restText)) (by decide +kernel)
  obtain ⟨root, decodes, -, keys⟩ := accepted_keys parsed
  exact ⟨backup, parsed, root, decodes, keys⟩

/-- A profile with an unknown key is accepted. -/
theorem unknownKey_accepted :
    (∃ backup, parse (decoding (profileText (restText ++ ",\"extra\":1"))
        (.object (profileDocument (restOfProfile ++ [(utf16 "extra", .number (.int 1))]))))
        (profileText (restText ++ ",\"extra\":1")) = .ok backup) ∧
      ∃ entries, BackupObject
          (profileDocument (restOfProfile ++ [(utf16 "extra", .number (.int 1))])) .profile
          entries ∧
        utf16 "extra" ∈ keysOf entries ∧ utf16 "extra" ∉ ObjectKind.profile.keys := by
  constructor
  · exact of_isOk (by decide +kernel)
  · exact ⟨_, .profile rfl List.mem_cons_self, by decide +kernel, by decide +kernel⟩

end CompanionBackup

end DawnDock.App
