import DawnDock.App.StoredMaps
import DawnDock.App.ScheduleDiff
import DawnDock.App.JsonEncoder

/-!
Local backups of the companion's state (`backup.dart`): the document that `encode` writes
and what `parse` makes of any text.

What the platform gives is a parameter: the JSON decoder, the lower case of a text and the
time zone of the phone.
-/

namespace DawnDock.App

def kBackupFormat : DartString := utf16 "dawndock-companion-backup"
def kBackupVersion : Int64 := 1
def kMaxBackupTextBytes : Nat := 1024 * 1024
def kMaxDrafts : Nat := kMaxStoredAlarms

/-- Substrings that no key may contain in lower case. -/
def kReservedKeyTokens : List DartString :=
  [utf16 "credential", utf16 "token", utf16 "secret", utf16 "password", utf16 "passphrase",
    utf16 "apikey", utf16 "api_key", utf16 "privatekey", utf16 "private_key",
    utf16 "pairingcode"]

/-- What `parse` asks of the platform. -/
structure Platform (δ : Type) where
  /-- A decoded text, or the message of the `FormatException`. -/
  jsonDecode : DartString → Except DartString (Value δ)
  toLowerCase : DartString → DartString
  /-- The instant of a wall time in the phone's time zone, both in microseconds. -/
  localToUtc : Int → Int

/-- The messages, with the values that are written into them. -/
inductive BackupMessage (δ : Type) where
  | text (message : String)
  | invalidJson (message : DartString)
  | unknownFormat (format : Value δ)
  | unsupportedVersion (version : Value δ)
  | validation (error : DartError)
  | duplicateDraft (id : DartString)

structure BackupException (δ : Type) where
  message : BackupMessage δ
  path : Option DartString := none

/-- What leaves a call other than by returning. -/
inductive Thrown (δ : Type) where
  | backup (exception : BackupException δ)
  | dart (error : DartError)

variable {δ : Type}

/-- `throw BackupException(message, path: path)` -/
def refuse {α : Type} (message : String) (path : Option DartString) : Except (Thrown δ) α :=
  .error (.backup { message := .text message, path })

/-- A call into the model classes. -/
def throwing {α : Type} (call : Except DartError α) : Except (Thrown δ) α := call.mapError .dart

/-- `'$path/$segment'` -/
def subpath (path segment : DartString) : DartString := path ++ [0x2f] ++ segment

/-! ### Keys -/

/-- A key that contains a reserved token. -/
def reservedKey (platform : Platform δ) (key : DartString) : Bool :=
  kReservedKeyTokens.any fun token => decide (token <:+: platform.toLowerCase key)

mutual

/-- `_requireReservedKeyScan` -/
def requireReservedKeyScan (platform : Platform δ) (path : DartString) :
    Value δ → Except (Thrown δ) Unit
  | .object entries => scanEntries platform path entries
  | .array elements => scanElements platform path 0 elements
  | .null | .boolean _ | .number _ | .string _ => .ok ()

def scanEntries (platform : Platform δ) (path : DartString) :
    List (DartString × Value δ) → Except (Thrown δ) Unit
  | [] => .ok ()
  | (key, value) :: rest =>
    if reservedKey platform key then
      refuse "reserved credential-like key excluded from backups" (some (subpath path key))
    else do
      requireReservedKeyScan platform (subpath path key) value
      scanEntries platform path rest

def scanElements (platform : Platform δ) (path : DartString) (i : Nat) :
    List (Value δ) → Except (Thrown δ) Unit
  | [] => .ok ()
  | element :: rest => do
    requireReservedKeyScan platform (subpath path (intText i)) element
    scanElements platform path (i + 1) rest

end

mutual

/-- The keys of all objects in a value. -/
def allKeys : Value δ → List DartString
  | .object entries => entriesKeys entries
  | .array elements => elementsKeys elements
  | .null | .boolean _ | .number _ | .string _ => []

def entriesKeys : List (DartString × Value δ) → List DartString
  | [] => []
  | (key, value) :: rest => key :: (allKeys value ++ entriesKeys rest)

def elementsKeys : List (Value δ) → List DartString
  | [] => []
  | element :: rest => allKeys element ++ elementsKeys rest

end

theorem then_eq_ok {first second : Except (Thrown δ) Unit} :
    (first >>= fun _ => second) = .ok () ↔ first = .ok () ∧ second = .ok () := by
  cases first with
  | error thrown => exact iff_of_false nofun fun both => nomatch both.1
  | ok => exact ⟨fun passed => ⟨rfl, passed⟩, And.right⟩

section Scan

variable (platform : Platform δ)

mutual

/-- The scan passes if no key contains a reserved token. -/
theorem scan_eq_ok (path : DartString) : (value : Value δ) →
    (requireReservedKeyScan platform path value = .ok () ↔
      ∀ key ∈ allKeys value, reservedKey platform key = false)
  | .object entries => by
      rw [requireReservedKeyScan, allKeys]
      exact scanEntries_eq_ok path entries
  | .array elements => by
      rw [requireReservedKeyScan, allKeys]
      exact scanElements_eq_ok path 0 elements
  | .null => by
      rw [requireReservedKeyScan, allKeys]
      exact iff_of_true rfl nofun
  | .boolean _ => by
      rw [requireReservedKeyScan, allKeys]
      exact iff_of_true rfl nofun
  | .number _ => by
      rw [requireReservedKeyScan, allKeys]
      exact iff_of_true rfl nofun
  | .string _ => by
      rw [requireReservedKeyScan, allKeys]
      exact iff_of_true rfl nofun

theorem scanEntries_eq_ok (path : DartString) : (entries : List (DartString × Value δ)) →
    (scanEntries platform path entries = .ok () ↔
      ∀ key ∈ entriesKeys entries, reservedKey platform key = false)
  | [] => by
      rw [scanEntries, entriesKeys]
      exact iff_of_true rfl nofun
  | (key, value) :: rest => by
      rw [scanEntries, entriesKeys, List.forall_mem_cons, List.forall_mem_append]
      split
      · rename_i reserved
        rw [reserved]
        exact iff_of_false nofun fun none => nomatch none.1
      · rename_i free
        rw [then_eq_ok, scan_eq_ok (subpath path key) value, scanEntries_eq_ok path rest,
          and_iff_right (Bool.eq_false_iff.mpr free)]

theorem scanElements_eq_ok (path : DartString) (i : Nat) : (elements : List (Value δ)) →
    (scanElements platform path i elements = .ok () ↔
      ∀ key ∈ elementsKeys elements, reservedKey platform key = false)
  | [] => by
      rw [scanElements, elementsKeys]
      exact iff_of_true rfl nofun
  | element :: rest => by
      rw [scanElements, elementsKeys, List.forall_mem_append, then_eq_ok,
        scan_eq_ok (subpath path (intText i)) element, scanElements_eq_ok path (i + 1) rest]

end

end Scan

/-- `_keySetMatches` -/
def keySetMatches (map : Entries δ) (required : List DartString) : Bool :=
  (keysOf map).dedup.length == required.length && required.all (keysOf map).contains

def rootKeys : List DartString :=
  [utf16 "format", utf16 "version", utf16 "exportedAtUtc", utf16 "deviceProfiles",
    utf16 "drafts", utf16 "scheduleMirror"]

def mirrorKeys : List DartString :=
  [utf16 "knownRevision", utf16 "committedAlarms", utf16 "lastReceipt"]

/-! ### Backups -/

structure CompanionBackup where
  exportedAtUtc : DateTime
  deviceProfiles : List DeviceProfile
  drafts : List AlarmDraft
  knownRevision : Int64
  committedAlarms : List AlarmDraft
  lastReceipt : Option SyncReceipt

namespace CompanionBackup

/-- The document that `encode` writes. -/
def document (exportedAtUtc : DateTime) (deviceProfiles : List DeviceProfile)
    (drafts : List AlarmDraft) (knownRevision : Int64) (committedAlarms : List AlarmDraft)
    (lastReceipt : Option SyncReceipt) : Entries δ :=
  [(utf16 "format", .string kBackupFormat), (utf16 "version", .number (.int kBackupVersion)),
    (utf16 "exportedAtUtc", .string exportedAtUtc.toUtc.toIso8601String),
    (utf16 "deviceProfiles", .array (deviceProfiles.map fun profile => .object profile.toMap)),
    (utf16 "drafts", .array (drafts.map fun draft => .object draft.toMap)),
    (utf16 "scheduleMirror", .object
      [(utf16 "knownRevision", .number (.int knownRevision)),
        (utf16 "committedAlarms", .array (committedAlarms.map fun draft => .object draft.toMap)),
        (utf16 "lastReceipt", SyncReceipt.receiptValue lastReceipt)])]

def encode [Double δ] (platform : Platform δ) (exportedAtUtc : DateTime)
    (deviceProfiles : List DeviceProfile) (drafts : List AlarmDraft) (knownRevision : Int64)
    (committedAlarms : List AlarmDraft) (lastReceipt : Option SyncReceipt) :
    Except (Thrown δ) DartString := do
  if deviceProfiles.length > kMaxProfiles then
    .error (.dart (.argumentError "too many device profiles to export"))
  else if drafts.length > kMaxDrafts || committedAlarms.length > kMaxDrafts then
    .error (.dart (.argumentError "too many drafts to export"))
  else
    let document : Value δ := .object (document exportedAtUtc deviceProfiles drafts knownRevision
      committedAlarms lastReceipt)
    requireReservedKeyScan platform [] document
    match encodeValue (some (utf16 "  ")) 0 document with
    | some text => return text
    | none => .error (.dart (.stateError "unsupported object"))

/-! ### Parsing -/

/-- `_requireList` -/
def requireList (value : Value δ) (path : String) (maximum : Nat) :
    Except (Thrown δ) (List (Value δ)) :=
  match value with
  | .array elements =>
    if elements.length > maximum then
      refuse ("array exceeds " ++ toString maximum ++ " entries") (some (utf16 path))
    else .ok elements
  | _ => refuse "must be an array" (some (utf16 path))

/-- The loop of `_parseDrafts`, with the index and the ids seen. -/
def parseDraftsLoop (path : DartString) (i : Nat) (ids : List DartString) :
    List (Value δ) → Except (Thrown δ) (List AlarmDraft)
  | [] => .ok []
  | .object entries :: rest => do
    let draft ← throwing (AlarmDraft.fromMap entries)
    if ids.contains draft.id then
      .error (.backup { message := .duplicateDraft draft.id
                        path := some (subpath path (intText i)) })
    else
      let drafts ← parseDraftsLoop path (i + 1) (draft.id :: ids) rest
      return draft :: drafts
  | _ :: _ => refuse "draft must be an object" (some (subpath path (intText i)))

/-- `_parseDrafts` -/
def parseDrafts (raw : List (Value δ)) (path : String) : Except (Thrown δ) (List AlarmDraft) :=
  parseDraftsLoop (utf16 path) 0 [] raw

def parseProfiles (platform : Platform δ) (raw : List (Value δ)) :
    Except (Thrown δ) (List DeviceProfile) := do
  let profiles ← raw.mapM fun e =>
    throwing (castMap e >>= DeviceProfile.fromMap platform.localToUtc)
  if (profiles.map (·.identity)).dedup.length ≠ profiles.length then
    refuse "duplicate device profile identity" (some (utf16 "/deviceProfiles"))
  else return profiles

/-- The receipt, if there is one, checked against the mirror it stands in. -/
def parseReceipt (platform : Platform δ) (knownRevision : Int64) (committed : List AlarmDraft) :
    Value δ → Except (Thrown δ) (Option SyncReceipt)
  | .null => .ok none
  | value => do
    let receipt ← throwing (castMap value >>= SyncReceipt.fromMap platform.localToUtc)
    if receipt.appliedRevision ≠ knownRevision then
      refuse "lastReceipt revision does not match knownRevision"
        (some (utf16 "/scheduleMirror/lastReceipt"))
    else if receipt.alarmCount ≠ Int64.ofNat committed.length then
      refuse "lastReceipt alarmCount does not match committedAlarms"
        (some (utf16 "/scheduleMirror/lastReceipt"))
    else return some receipt

/-- The `try` block. -/
def parseModels (platform : Platform δ) (exportedAt : DateTime) (knownRevision : Int64)
    (profilesRaw draftsRaw committedRaw : List (Value δ)) (lastReceipt : Value δ) :
    Except (Thrown δ) CompanionBackup := do
  let deviceProfiles ← parseProfiles platform profilesRaw
  let drafts ← parseDrafts draftsRaw "/drafts"
  let committed ← parseDrafts committedRaw "/scheduleMirror/committedAlarms"
  let receipt ← parseReceipt platform knownRevision committed lastReceipt
  return {
    exportedAtUtc := exportedAt.toUtc
    deviceProfiles
    drafts := sortById drafts
    knownRevision
    committedAlarms := sortById committed
    lastReceipt := receipt }

/-- The `on` clauses of the `try` block. -/
def converting {α : Type} (call : Except (Thrown δ) α) : Except (Thrown δ) α :=
  call.mapError fun
    | .backup exception => .backup exception
    | .dart error =>
      if error.convertible then .backup { message := .validation error } else .dart error

/-- The mirror, and the models in the document. -/
def parseMirror (platform : Platform δ) (exportedAt : DateTime)
    (profilesRaw draftsRaw : List (Value δ)) (mirror : Entries δ) :
    Except (Thrown δ) CompanionBackup :=
  if !keySetMatches mirror mirrorKeys then
    refuse "scheduleMirror keys are not exact" (some (utf16 "/scheduleMirror"))
  else
    match index mirror (utf16 "knownRevision") with
    | .number (.int knownRevision) =>
      if knownRevision < 0 then
        refuse "knownRevision must be a non-negative integer"
          (some (utf16 "/scheduleMirror/knownRevision"))
      else do
        let committedRaw ← requireList (index mirror (utf16 "committedAlarms"))
          "/scheduleMirror/committedAlarms" kMaxDrafts
        converting (parseModels platform exportedAt knownRevision profilesRaw draftsRaw
          committedRaw (index mirror (utf16 "lastReceipt")))
    | _ =>
      refuse "knownRevision must be a non-negative integer"
        (some (utf16 "/scheduleMirror/knownRevision"))

/-- What is checked of the root before its export time. -/
def checkRoot (root : Entries δ) : Except (Thrown δ) Unit :=
  if !keySetMatches root rootKeys then refuse "backup root keys are not exact" none
  else if !isString (· == kBackupFormat) (index root (utf16 "format")) then
    .error (.backup { message := .unknownFormat (index root (utf16 "format")) })
  else if !isInt (· == kBackupVersion) (index root (utf16 "version")) then
    .error (.backup { message := .unsupportedVersion (index root (utf16 "version")) })
  else .ok ()

/-- The parts of the document behind the export time. -/
def parseParts (platform : Platform δ) (exportedAt : DateTime) (root : Entries δ) :
    Except (Thrown δ) CompanionBackup := do
  let profilesRaw ← requireList (index root (utf16 "deviceProfiles")) "/deviceProfiles"
    kMaxProfiles
  let draftsRaw ← requireList (index root (utf16 "drafts")) "/drafts" kMaxDrafts
  match index root (utf16 "scheduleMirror") with
  | .object mirror => parseMirror platform exportedAt profilesRaw draftsRaw mirror
  | _ => refuse "scheduleMirror must be an object" (some (utf16 "/scheduleMirror"))

/-- The export time is read by a cast outside the `try` block. -/
def parseRoot (platform : Platform δ) (root : Entries δ) : Except (Thrown δ) CompanionBackup := do
  checkRoot root
  let exportedText ← throwing (castNullableString (index root (utf16 "exportedAtUtc")))
  match DateTime.tryParse platform.localToUtc (exportedText.getD []) with
  | some exportedAt => parseParts platform exportedAt root
  | none => refuse "exportedAtUtc is missing or not ISO-8601" (some (utf16 "/exportedAtUtc"))

def parse (platform : Platform δ) (text : DartString) : Except (Thrown δ) CompanionBackup :=
  if utf8Length text > kMaxBackupTextBytes then
    refuse ("backup exceeds " ++ toString kMaxBackupTextBytes ++ " bytes") none
  else
    match platform.jsonDecode text with
    | .error message => .error (.backup { message := .invalidJson message })
    | .ok decoded => do
      requireReservedKeyScan platform [] decoded
      match decoded with
      | .object root => parseRoot platform root
      | _ => refuse "backup root must be an object" none

end CompanionBackup

end DawnDock.App
