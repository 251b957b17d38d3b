import DawnDock.App.BackupKeys

/-!
The live stores of the app (`device_profile.dart`, `alarm_draft.dart`,
`schedule_store.dart`), and `CompanionBackup.applyTo`, which replaces what they hold.

`applyTo` sets one store after another, and the last one may throw. What `parse` has
checked of a backup (`CompanionBackup.Sound`) is enough for it not to (`applyTo_sound`).
-/

namespace DawnDock.App

open Collect (of_bind_eq_ok)

/-! ### The stores -/

structure DeviceProfileStore where
  profiles : List DeviceProfile

namespace DeviceProfileStore

def upsert (store : DeviceProfileStore) (profile : DeviceProfile) :
    Except DartError DeviceProfileStore :=
  match store.profiles.findIdx? fun p => p.identity == profile.identity with
  | some index => .ok { profiles := store.profiles.set index profile }
  | none =>
    if store.profiles.length ≥ kMaxProfiles then
      .error (.stateError ("profile store is full (" ++ toString kMaxProfiles ++ ")"))
    else .ok { profiles := store.profiles ++ [profile] }

def remove (store : DeviceProfileStore) (identity : DartString) : Bool × DeviceProfileStore :=
  let kept := store.profiles.filter fun profile => profile.identity != identity
  (kept.length != store.profiles.length, { profiles := kept })

/-- No bound is checked here. -/
def replaceAll (profiles : List DeviceProfile) : DeviceProfileStore := { profiles }

end DeviceProfileStore

/-- A map from ids to drafts, in the order of insertion. -/
structure DraftSet where
  entries : List AlarmDraft
  distinct : (entries.map (·.id)).Nodup

namespace DraftSet

def drafts (set : DraftSet) : List AlarmDraft := sortById set.entries

def containsId (set : DraftSet) (id : DartString) : Bool := (set.entries.map (·.id)).contains id

/-- `_drafts[draft.id] = draft`: a key that is there keeps its place. -/
def assign (set : DraftSet) (draft : AlarmDraft) : DraftSet where
  entries :=
    if set.containsId draft.id then
      set.entries.map fun other => if other.id = draft.id then draft else other
    else set.entries ++ [draft]
  distinct := by
    split
    · have same : (set.entries.map fun other => if other.id = draft.id then draft else other).map
          (·.id) = set.entries.map (·.id) := by
        rw [List.map_map]
        apply List.map_congr_left
        intro other _
        by_cases own : other.id = draft.id
        · simp [own]
        · simp [own]
      rw [same]
      exact set.distinct
    · rename_i absent
      rw [List.map_append, List.nodup_append]
      refine ⟨set.distinct, List.nodup_singleton _, ?_⟩
      intro id mem other single
      rw [List.map_singleton, List.mem_singleton] at single
      subst single
      rintro rfl
      exact absent (List.contains_iff_mem.mpr mem)

def put (set : DraftSet) (draft : AlarmDraft) : Except DartError DraftSet :=
  if !set.containsId draft.id && set.entries.length ≥ kMaxDrafts then
    .error (.stateError ("draft set is full (" ++ toString kMaxDrafts ++ ")"))
  else .ok (set.assign draft)

def remove (set : DraftSet) (id : DartString) : Bool × DraftSet :=
  (set.containsId id,
    { entries := set.entries.filter fun draft => draft.id != id
      distinct := set.distinct.sublist (List.filter_sublist.map _) })

def clear : DraftSet := { entries := [], distinct := List.nodup_nil }

/-- No bound is checked here either. -/
def replaceAll (drafts : List AlarmDraft) : DraftSet := drafts.foldl assign clear

end DraftSet

def DeviceScheduleStore.clear : DeviceScheduleStore := .empty

/-- The stores that one coordinator is given. -/
structure LiveStores where
  profileStore : DeviceProfileStore
  draftSet : DraftSet
  scheduleStore : DeviceScheduleStore

/-- The stores as constructed, and as an erase leaves them. -/
def LiveStores.empty : LiveStores :=
  { profileStore := .replaceAll [], draftSet := .clear, scheduleStore := .clear }

namespace CompanionBackup

/-- `applyTo`: what it throws, and the stores it leaves then or otherwise. -/
def applyTo (backup : CompanionBackup) (live : LiveStores) : Except DartError Unit × LiveStores :=
  let filled : LiveStores :=
    { live with
      profileStore := .replaceAll backup.deviceProfiles
      draftSet := .replaceAll backup.drafts }
  match DeviceScheduleStore.replaceAll backup.knownRevision backup.committedAlarms
      backup.lastReceipt with
  | .ok scheduleStore => (.ok (), { filled with scheduleStore })
  | .error error => (.error error, filled)

/-- The stores that a backup describes. -/
def restored (backup : CompanionBackup) : LiveStores where
  profileStore := .replaceAll backup.deviceProfiles
  draftSet := .replaceAll backup.drafts
  scheduleStore :=
    { committed := backup.committedAlarms
      knownRevision := backup.knownRevision
      lastReceipt := backup.lastReceipt }

end CompanionBackup

/-! ### Edits -/

/-- The calls that change a store otherwise than by a backup or an erase. -/
inductive LiveEdit where
  | upsert (profile : DeviceProfile)
  | removeProfile (identity : DartString)
  | put (draft : AlarmDraft)
  | removeDraft (id : DartString)
  | recordApplied (revision : Int64) (appliedAlarms : List AlarmDraft)
      (nextAlarmUtc now : DateTime)

/-- A call that throws changes nothing. -/
def LiveStores.edit (live : LiveStores) : LiveEdit → Except DartError LiveStores
  | .upsert profile => do
    let profileStore ← live.profileStore.upsert profile
    return { live with profileStore }
  | .removeProfile identity =>
    .ok { live with profileStore := (live.profileStore.remove identity).2 }
  | .put draft => do
    let draftSet ← live.draftSet.put draft
    return { live with draftSet }
  | .removeDraft id => .ok { live with draftSet := (live.draftSet.remove id).2 }
  | .recordApplied revision appliedAlarms nextAlarmUtc now => do
    let scheduleStore ← live.scheduleStore.recordApplied revision appliedAlarms nextAlarmUtc now
    return { live with scheduleStore }

/-! ### Bounds -/

/-- A receipt that stands for what the mirror holds. -/
def ReceiptFits (revision : Int64) (alarms : List AlarmDraft) (receipt : Option SyncReceipt) :
    Prop :=
  ∀ r ∈ receipt, r.appliedRevision = revision ∧ r.alarmCount = Int64.ofNat alarms.length

structure ProfilesFit (profiles : List DeviceProfile) : Prop where
  fits : profiles.length ≤ kMaxProfiles
  identities : (profiles.map (·.identity)).Nodup

structure DeviceScheduleStore.Fits (store : DeviceScheduleStore) : Prop where
  committed : ProposalChecks store.committed
  revision : 0 ≤ store.knownRevision
  receipt : ReceiptFits store.knownRevision store.committed store.lastReceipt

structure LiveStores.Fits (live : LiveStores) : Prop where
  profiles : ProfilesFit live.profileStore.profiles
  drafts : live.draftSet.entries.length ≤ kMaxDrafts
  mirror : live.scheduleStore.Fits

theorem LiveStores.fits_empty : LiveStores.empty.Fits where
  profiles := ⟨Nat.zero_le _, List.nodup_nil⟩
  drafts := Nat.zero_le _
  mirror :=
    { committed := ⟨Nat.zero_le _, List.nodup_nil⟩
      revision := Int64.le_refl 0
      receipt := fun _ none => by cases none }

section Edits

theorem DeviceProfileStore.upsert_fits {store after : DeviceProfileStore} {profile : DeviceProfile}
    (fit : ProfilesFit store.profiles) (upserted : store.upsert profile = .ok after) :
    ProfilesFit after.profiles := by
  unfold DeviceProfileStore.upsert at upserted
  split at upserted
  · rename_i index found
    cases upserted
    obtain ⟨inside, own, -⟩ := List.findIdx?_eq_some_iff_getElem.mp found
    have same : (store.profiles.set index profile).map (·.identity) =
        store.profiles.map (·.identity) := by
      rw [List.map_set, ← beq_iff_eq.mp own]
      apply List.ext_getElem
      · rw [List.length_set]
      · intro i _ _
        rw [List.getElem_set]
        split
        · rename_i here
          subst here
          rw [List.getElem_map]
        · rfl
    exact ⟨by rw [List.length_set]; exact fit.fits, by rw [same]; exact fit.identities⟩
  · rename_i absent
    split at upserted
    · cases upserted
    rename_i room
    cases upserted
    rw [List.findIdx?_eq_none_iff] at absent
    constructor
    · rw [List.length_append, List.length_singleton]
      omega
    · rw [List.map_append, List.nodup_append]
      refine ⟨fit.identities, List.nodup_singleton _, ?_⟩
      intro identity mem other single
      obtain ⟨known, listed, rfl⟩ := List.mem_map.mp mem
      rw [List.map_singleton, List.mem_singleton] at single
      subst single
      exact beq_eq_false_iff_ne.mp (absent known listed)

theorem DeviceProfileStore.remove_fits {store : DeviceProfileStore} (identity : DartString)
    (fit : ProfilesFit store.profiles) : ProfilesFit (store.remove identity).2.profiles where
  fits := (List.length_filter_le _ _).trans fit.fits
  identities := fit.identities.sublist (List.filter_sublist.map _)

theorem DraftSet.put_fits {set after : DraftSet} {draft : AlarmDraft}
    (fit : set.entries.length ≤ kMaxDrafts) (put : set.put draft = .ok after) :
    after.entries.length ≤ kMaxDrafts := by
  unfold DraftSet.put at put
  split at put
  · cases put
  rename_i room
  cases put
  rw [DraftSet.assign]
  dsimp only
  split
  · rw [List.length_map]
    exact fit
  · rename_i absent
    rw [List.length_append, List.length_singleton]
    simp only [absent, Bool.not_false, Bool.true_and, decide_eq_true_eq, ge_iff_le,
      Nat.not_le] at room
    exact room

theorem receiptFits_some {revision : Int64} {alarms : List AlarmDraft} {receipt : SyncReceipt}
    (applied : receipt.appliedRevision = revision)
    (count : receipt.alarmCount = Int64.ofNat alarms.length) :
    ReceiptFits revision alarms (some receipt) := by
  rintro _ ⟨⟩
  exact ⟨applied, count⟩

theorem DeviceScheduleStore.recordApplied_fits {store after : DeviceScheduleStore}
    {revision : Int64} {alarms : List AlarmDraft} {nextAlarmUtc now : DateTime}
    (fit : store.Fits) (recorded : store.recordApplied revision alarms nextAlarmUtc now = .ok after) :
    after.Fits ∧ store.knownRevision < after.knownRevision := by
  obtain ⟨checks, later, -⟩ := of_recordApplied recorded
  unfold DeviceScheduleStore.recordApplied at recorded
  obtain ⟨_, -, recorded⟩ := of_bind_eq_ok recorded
  split at recorded
  · cases recorded
  cases recorded
  refine ⟨⟨checks, ?_, receiptFits_some rfl rfl⟩, later⟩
  exact Int64.le_trans fit.revision (Int64.le_of_lt later)

/-- An edit keeps the bounds, and the mirror's revision does not go down. -/
theorem LiveStores.edit_fits {live after : LiveStores} {edit : LiveEdit} (fit : live.Fits)
    (edited : live.edit edit = .ok after) :
    after.Fits ∧ live.scheduleStore.knownRevision ≤ after.scheduleStore.knownRevision := by
  cases edit with
  | upsert profile =>
      obtain ⟨profileStore, upserted, same⟩ := of_bind_eq_ok edited
      cases same
      exact ⟨{ fit with profiles := DeviceProfileStore.upsert_fits fit.profiles upserted },
        Int64.le_refl _⟩
  | removeProfile identity =>
      cases edited
      exact ⟨{ fit with profiles := DeviceProfileStore.remove_fits identity fit.profiles },
        Int64.le_refl _⟩
  | put draft =>
      obtain ⟨draftSet, put, same⟩ := of_bind_eq_ok edited
      cases same
      exact ⟨{ fit with drafts := DraftSet.put_fits fit.drafts put }, Int64.le_refl _⟩
  | removeDraft id =>
      cases edited
      exact ⟨{ fit with drafts := (List.length_filter_le _ _).trans fit.drafts }, Int64.le_refl _⟩
  | recordApplied revision alarms nextAlarmUtc now =>
      obtain ⟨scheduleStore, recorded, same⟩ := of_bind_eq_ok edited
      cases same
      obtain ⟨mirror, later⟩ := DeviceScheduleStore.recordApplied_fits fit.mirror recorded
      exact ⟨{ fit with mirror }, Int64.le_of_lt later⟩

end Edits

/-! ### Sound backups -/

/-- What `parse` has checked of a backup. -/
structure CompanionBackup.Sound (backup : CompanionBackup) : Prop where
  profiles : ProfilesFit backup.deviceProfiles
  drafts : ProposalChecks backup.drafts
  mirror : ProposalChecks backup.committedAlarms
  revision : 0 ≤ backup.knownRevision
  receipt : ReceiptFits backup.knownRevision backup.committedAlarms backup.lastReceipt

theorem DraftSet.foldl_assign {set : DraftSet} {drafts : List AlarmDraft}
    (distinct : ((set.entries ++ drafts).map (·.id)).Nodup) :
    (drafts.foldl assign set).entries = set.entries ++ drafts := by
  induction drafts generalizing set with
  | nil => exact (List.append_nil _).symm
  | cons draft rest ih =>
      have absent : set.containsId draft.id = false := by
        rw [List.map_append, List.nodup_append] at distinct
        rw [containsId, ← Bool.not_eq_true, List.contains_iff_mem]
        intro mem
        exact distinct.2.2 _ mem _ List.mem_cons_self rfl
      have added : (set.assign draft).entries = set.entries ++ [draft] := by
        rw [assign]
        dsimp only
        rw [absent, if_neg Bool.false_ne_true]
      rw [List.append_cons] at distinct
      rw [List.foldl_cons, ih (added ▸ distinct), added, ← List.append_cons]

theorem DraftSet.replaceAll_entries {drafts : List AlarmDraft}
    (distinct : (drafts.map (·.id)).Nodup) : (replaceAll drafts).entries = drafts := by
  have start : clear.entries ++ drafts = drafts := rfl
  exact (foldl_assign (start.symm ▸ distinct)).trans start

namespace CompanionBackup

section Sound

variable {backup : CompanionBackup} (sound : backup.Sound)

include sound

/-- A sound backup is applied in full, whatever the stores hold. -/
theorem applyTo_sound (live : LiveStores) : backup.applyTo live = (.ok (), backup.restored) := by
  have replaced : DeviceScheduleStore.replaceAll backup.knownRevision backup.committedAlarms
      backup.lastReceipt = .ok backup.restored.scheduleStore := by
    rw [DeviceScheduleStore.replaceAll, validateProposal_eq_ok.mpr sound.mirror]
    refine (if_neg (Int64.not_lt.mpr sound.revision)).trans (if_neg ?_)
    rw [Option.any_eq_true]
    rintro ⟨receipt, held, inconsistent⟩
    obtain ⟨applied, count⟩ := sound.receipt receipt held
    simp [applied, count] at inconsistent
  rw [applyTo, replaced]
  rfl

theorem restored_fits : backup.restored.Fits where
  profiles := sound.profiles
  drafts := by
    rw [restored, DraftSet.replaceAll_entries sound.drafts.ids]
    exact sound.drafts.fits
  mirror := ⟨sound.mirror, sound.revision, sound.receipt⟩

end Sound

variable {δ : Type} {platform : Platform δ}

theorem perm_sortById (alarms : List AlarmDraft) : (sortById alarms).Perm alarms :=
  List.perm_insertionSort _ _

theorem sortById_checks {alarms : List AlarmDraft} (checks : ProposalChecks alarms) :
    ProposalChecks (sortById alarms) where
  fits := (perm_sortById alarms).length_eq ▸ checks.fits
  ids := ((perm_sortById alarms).map _).nodup_iff.mpr checks.ids

/-- The drafts that are read have distinct ids, none of which was seen before. -/
theorem parseDraftsLoop_distinct {path : DartString} {i : Nat} {ids : List DartString}
    {raw : List (Value δ)} {drafts : List AlarmDraft}
    (parsed : parseDraftsLoop path i ids raw = .ok drafts) :
    drafts.length = raw.length ∧ (drafts.map (·.id)).Nodup ∧ ∀ draft ∈ drafts, draft.id ∉ ids := by
  induction raw generalizing i ids drafts with
  | nil =>
      cases parsed
      exact ⟨rfl, List.nodup_nil, List.forall_mem_nil _⟩
  | cons entry rest ih =>
      cases entry with
      | object map =>
          rw [parseDraftsLoop] at parsed
          obtain ⟨draft, -, parsed⟩ := of_bind_eq_ok parsed
          split at parsed
          · cases parsed
          rename_i unseen
          obtain ⟨others, later, same⟩ := of_bind_eq_ok parsed
          cases same
          obtain ⟨length, distinct, fresh⟩ := ih later
          refine ⟨by rw [List.length_cons, length, List.length_cons], ?_, ?_⟩
          · rw [List.map_cons, List.nodup_cons]
            refine ⟨?_, distinct⟩
            intro mem
            obtain ⟨other, listed, same⟩ := List.mem_map.mp mem
            exact fresh other listed (same ▸ List.mem_cons_self)
          · rw [List.forall_mem_cons]
            refine ⟨fun seen => unseen (List.contains_iff_mem.mpr seen), ?_⟩
            intro other listed seen
            exact fresh other listed (List.mem_cons_of_mem _ seen)
      | _ => cases parsed

theorem requireList_length {value : Value δ} {path : String} {maximum : Nat}
    {elements : List (Value δ)} (listed : requireList value path maximum = .ok elements) :
    elements.length ≤ maximum := by
  unfold requireList at listed
  split at listed
  · split at listed
    · cases listed
    · rename_i fits
      cases listed
      exact Nat.not_lt.mp fits
  · cases listed

theorem parseDrafts_checks {raw : List (Value δ)} {path : String} {drafts : List AlarmDraft}
    (fits : raw.length ≤ kMaxDrafts) (parsed : parseDrafts raw path = .ok drafts) :
    ProposalChecks drafts := by
  obtain ⟨length, distinct, -⟩ := parseDraftsLoop_distinct parsed
  exact ⟨length ▸ fits, distinct⟩

theorem parseProfiles_fit {raw : List (Value δ)} {profiles : List DeviceProfile}
    (fits : raw.length ≤ kMaxProfiles) (parsed : parseProfiles platform raw = .ok profiles) :
    ProfilesFit profiles := by
  unfold parseProfiles at parsed
  obtain ⟨found, mapped, parsed⟩ := of_bind_eq_ok parsed
  split at parsed
  · cases parsed
  rename_i distinct
  cases parsed
  refine ⟨(Collect.all_of_mapM mapped).length_eq ▸ fits, dedup_length_eq_iff.mp ?_⟩
  rw [List.length_map]
  exact not_ne_iff.mp distinct

theorem parseReceipt_fits {knownRevision : Int64} {committed : List AlarmDraft} {value : Value δ}
    {receipt : Option SyncReceipt}
    (parsed : parseReceipt platform knownRevision committed value = .ok receipt) :
    ReceiptFits knownRevision committed receipt := by
  unfold parseReceipt at parsed
  split at parsed
  · cases parsed
    rintro _ ⟨⟩
  obtain ⟨found, -, parsed⟩ := of_bind_eq_ok parsed
  split at parsed
  · cases parsed
  split at parsed
  · cases parsed
  rename_i applied count
  cases parsed
  exact receiptFits_some (not_ne_iff.mp applied) (not_ne_iff.mp count)

/-- Whatever `parse` returns is sound. -/
theorem sound_of_parse {text : DartString} {backup : CompanionBackup}
    (parsed : parse platform text = .ok backup) : backup.Sound := by
  unfold parse at parsed
  split at parsed
  · cases parsed
  split at parsed
  · cases parsed
  rename_i decoded _
  obtain ⟨_, -, parsed⟩ := of_bind_eq_ok parsed
  cases decoded with
  | object root =>
      change parseRoot platform root = .ok backup at parsed
      unfold parseRoot at parsed
      obtain ⟨_, -, parsed⟩ := of_bind_eq_ok parsed
      obtain ⟨_, -, parsed⟩ := of_bind_eq_ok parsed
      split at parsed
      · unfold parseParts at parsed
        obtain ⟨profilesRaw, profilesListed, parsed⟩ := of_bind_eq_ok parsed
        obtain ⟨draftsRaw, draftsListed, parsed⟩ := of_bind_eq_ok parsed
        split at parsed
        · unfold parseMirror at parsed
          split at parsed
          · cases parsed
          split at parsed
          · split at parsed
            · cases parsed
            rename_i nonnegative
            obtain ⟨committedRaw, committedListed, parsed⟩ := of_bind_eq_ok parsed
            have models := of_converting parsed
            unfold parseModels at models
            obtain ⟨deviceProfiles, profiles, models⟩ := of_bind_eq_ok models
            obtain ⟨drafts, draftsParsed, models⟩ := of_bind_eq_ok models
            obtain ⟨committed, committedParsed, models⟩ := of_bind_eq_ok models
            obtain ⟨receipt, receiptParsed, same⟩ := of_bind_eq_ok models
            cases same
            refine ⟨parseProfiles_fit (requireList_length profilesListed) profiles, ?_, ?_,
              Int64.not_lt.mp nonnegative, ?_⟩
            · exact sortById_checks (parseDrafts_checks (requireList_length draftsListed) draftsParsed)
            · exact sortById_checks
                (parseDrafts_checks (requireList_length committedListed) committedParsed)
            · intro r held
              obtain ⟨applied, count⟩ := parseReceipt_fits receiptParsed r held
              exact ⟨applied, count.trans
                (congrArg Int64.ofNat (perm_sortById committed).length_eq.symm)⟩
          · cases parsed
        · cases parsed
      · cases parsed
  | _ => cases parsed

end CompanionBackup

end DawnDock.App
