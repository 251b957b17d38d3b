import DawnDock.App.DateTexts
import DawnDock.App.DeviceScheduleStore

/-!
The maps that a backup keeps of the domain classes: `toMap` and `fromMap` of import
provenances, alarm drafts, sync receipts and device profiles.

What `fromMap` throws on any map is an error that a backup converts
(`AlarmDraft.fromMap_convertible` and its siblings).
-/

namespace DawnDock.App

variable {δ : Type}

/-! ### Casts -/

def castString : Value δ → Except DartError DartString
  | .string text => .ok text
  | _ => .error .typeError

/-- `as String?` -/
def castNullableString : Value δ → Except DartError (Option DartString)
  | .null => .ok none
  | .string text => .ok (some text)
  | _ => .error .typeError

def castBool : Value δ → Except DartError Bool
  | .boolean value => .ok value
  | _ => .error .typeError

def castInt : Value δ → Except DartError Int64
  | .number (.int value) => .ok value
  | _ => .error .typeError

def castMap : Value δ → Except DartError (Entries δ)
  | .object entries => .ok entries
  | _ => .error .typeError

/-- `cast<int>().toSet()` -/
def castIntSet (elements : List (Value δ)) : Except DartError (Finset Int64) := do
  let values ← elements.mapM castInt
  return values.toFinset

/-- The local function `need` of a `fromMap`. -/
def need (kind : String) (map : Entries δ) (key : String) : Except DartError (Value δ) :=
  if containsKey map (utf16 key) then .ok (index map (utf16 key))
  else .error (.formatException (kind ++ " missing " ++ key))

/-! ### Provenances and drafts -/

def ImportProvenance.maxOriginLabelBytes : Nat := 32

namespace ImportProvenance

def toMap (provenance : ImportProvenance) : Entries δ :=
  [(utf16 "sourceEventId", .string provenance.sourceEventId),
    (utf16 "originLabel", .string provenance.originLabel)]

/-- A field that is a text within bounds. -/
def boundedField (map : Entries δ) (key : String) (maximum : Nat) :
    Except DartError DartString :=
  match index map (utf16 key) with
  | .string text =>
    if text.isEmpty || utf8Length text > maximum then
      .error (.formatException ("invalid " ++ key))
    else .ok text
  | _ => .error (.formatException ("invalid " ++ key))

def fromMap (map : Entries δ) : Except DartError ImportProvenance := do
  let sourceEventId ← boundedField map "sourceEventId" kMaxSourceEventIdBytes
  let originLabel ← boundedField map "originLabel" maxOriginLabelBytes
  return { sourceEventId, originLabel }

end ImportProvenance

/-- The constructor. -/
def AlarmDraft.create (fields : AlarmFields) : Except DartError AlarmDraft :=
  match valid : fields.validate with
  | .ok () => .ok { fields with valid }
  | .error error => .error error

namespace AlarmDraft

/-- `provenance?.toMap()` -/
def provenanceValue (draft : AlarmDraft) : Value δ :=
  match draft.provenance with
  | some provenance => .object provenance.toMap
  | none => .null

def toMap (draft : AlarmDraft) : Entries δ :=
  [(utf16 "id", .string draft.id), (utf16 "label", .string draft.label),
    (utf16 "enabled", .boolean draft.enabled),
    (utf16 "localHour", .number (.int draft.localHour)),
    (utf16 "localMinute", .number (.int draft.localMinute)),
    (utf16 "days", .array (draft.days.sort.map fun day => .number (.int day))),
    (utf16 "timezone", .string draft.timezone),
    (utf16 "snoozeMinutes", .number (.int draft.snoozeMinutes)),
    (utf16 "volume", .number (.int draft.volume)), (utf16 "sound", .string draft.sound),
    (utf16 "source", .string draft.source.name),
    (utf16 "provenance", draft.provenanceValue)]

/-- The `switch` over the name of the source. -/
def sourceNamed : Value δ → Except DartError DraftSource
  | .string name =>
    if name = utf16 "manual" then .ok .manual
    else if name = utf16 "ics" then .ok .ics
    else .error (.formatException "unknown draft source")
  | _ => .error (.formatException "unknown draft source")

/-- `map['provenance']`, if it is there and not null. -/
def provenanceOf (map : Entries δ) : Except DartError (Option ImportProvenance) :=
  match index map (utf16 "provenance") with
  | .null => .ok none
  | value => do
    let entries ← castMap value
    let provenance ← ImportProvenance.fromMap entries
    return some provenance

def fromMap (map : Entries δ) : Except DartError AlarmDraft := do
  let sourceName ← need "draft" map "source"
  let provenance ← provenanceOf map
  let days ← need "draft" map "days"
  match days with
  | .array elements => do
    let id ← need "draft" map "id" >>= castString
    let label ← need "draft" map "label" >>= castString
    let enabled ← need "draft" map "enabled" >>= castBool
    let localHour ← need "draft" map "localHour" >>= castInt
    let localMinute ← need "draft" map "localMinute" >>= castInt
    let days ← castIntSet elements
    let timezone ← need "draft" map "timezone" >>= castString
    let snoozeMinutes ← need "draft" map "snoozeMinutes" >>= castInt
    let volume ← need "draft" map "volume" >>= castInt
    let sound ← need "draft" map "sound" >>= castString
    let source ← sourceNamed sourceName
    create
      { id, label, enabled, localHour, localMinute, days, timezone, snoozeMinutes, volume, sound,
        source, provenance }
  | _ => .error (.formatException "days must be a list")

end AlarmDraft

/-! ### Receipts and profiles -/

namespace SyncReceipt

def toMap (receipt : SyncReceipt) : Entries δ :=
  [(utf16 "appliedRevision", .number (.int receipt.appliedRevision)),
    (utf16 "alarmCount", .number (.int receipt.alarmCount)),
    (utf16 "nextAlarmUtc", .string receipt.nextAlarmUtc.toUtc.toIso8601String),
    (utf16 "receivedAtUtc", .string receipt.receivedAtUtc.toUtc.toIso8601String)]

/-- `lastReceipt?.toMap()` -/
def receiptValue : Option SyncReceipt → Value δ
  | some receipt => .object receipt.toMap
  | none => .null

def fromMap (localToUtc : Int → Int) (map : Entries δ) : Except DartError SyncReceipt := do
  let nextText ← need "receipt" map "nextAlarmUtc" >>= castNullableString
  let receivedText ← need "receipt" map "receivedAtUtc" >>= castNullableString
  match DateTime.tryParse localToUtc (nextText.getD []),
      DateTime.tryParse localToUtc (receivedText.getD []) with
  | some next, some received => do
    let appliedRevision ← need "receipt" map "appliedRevision" >>= castInt
    let alarmCount ← need "receipt" map "alarmCount" >>= castInt
    return { appliedRevision, alarmCount, nextAlarmUtc := next.toUtc,
             receivedAtUtc := received.toUtc }
  | _, _ => .error (.formatException "receipt timestamps are not ISO-8601")

end SyncReceipt

def kMaxDeviceNameBytes : Nat := 64
def kMaxProfileNoteBytes : Nat := 160
def kMaxProfiles : Nat := 32

/-- The arguments of a profile's constructor. -/
structure ProfileFields where
  identity : DartString
  displayName : DartString
  note : DartString
  addedAtUtc : Option DateTime
deriving DecidableEq

/-- The body of the constructor. -/
def ProfileFields.validate (fields : ProfileFields) : Except DartError Unit := do
  requireBounded fields.identity kMaxDeviceNameBytes "identity"
  requireBounded fields.displayName kMaxDeviceNameBytes "displayName"
  if utf8Length fields.note > kMaxProfileNoteBytes then
    .error (.argumentError ("note exceeds " ++ toString kMaxProfileNoteBytes ++ " UTF-8 bytes"))
  else .ok ()

/-- A profile: fields that the constructor has accepted. -/
structure DeviceProfile extends ProfileFields where
  valid : toProfileFields.validate = .ok ()
deriving DecidableEq

namespace DeviceProfile

/-- The constructor. -/
def create (fields : ProfileFields) : Except DartError DeviceProfile :=
  match valid : fields.validate with
  | .ok () => .ok { fields with valid }
  | .error error => .error error

def toMap (profile : DeviceProfile) : Entries δ :=
  [(utf16 "identity", .string profile.identity), (utf16 "displayName", .string profile.displayName),
    (utf16 "note", .string profile.note),
    (utf16 "addedAtUtc",
      match profile.addedAtUtc with
      | some added => .string added.toUtc.toIso8601String
      | none => .null)]

/-- `added`, if it is not null. -/
def addedAt (localToUtc : Int → Int) : Value δ → Except DartError (Option DateTime)
  | .null => .ok none
  | .string text =>
    match DateTime.tryParse localToUtc text with
    | some added => .ok (some added)
    | none => .error (.formatException "addedAtUtc is not ISO-8601")
  | _ => .error (.formatException "addedAtUtc must be a string or null")

/-- `map['note'] ?? ''` -/
def noteOf (map : Entries δ) : Value δ :=
  match index map (utf16 "note") with
  | .null => .string []
  | value => value

def fromMap (localToUtc : Int → Int) (map : Entries δ) : Except DartError DeviceProfile :=
  match index map (utf16 "identity"), index map (utf16 "displayName"), noteOf map with
  | .string identity, .string displayName, .string note => do
    let addedAtUtc ← addedAt localToUtc (index map (utf16 "addedAtUtc"))
    create { identity, displayName, note, addedAtUtc }
  | _, _, _ => .error (.formatException "device profile has non-string fields")

end DeviceProfile

/-! ### What is thrown -/

/-- A `FormatException`, an `ArgumentError` (`RangeError` is one) or a `TypeError`. -/
def DartError.convertible : DartError → Bool
  | .formatException _ | .argumentError _ | .argumentValue _ _ | .rangeError | .typeError => true
  | .stateError _ | .exchangeReject _ _ => false

/-- A call that throws nothing but errors that can be converted. -/
def Converts {α : Type} (call : Except DartError α) : Prop :=
  ∀ error, call = .error error → error.convertible = true

section Converts

variable {α β : Type}

theorem converts_ok (value : α) : Converts (.ok value) := nofun

theorem converts_error {error : DartError} (convertible : error.convertible = true) :
    Converts (.error error : Except DartError α) := by
  rintro other ⟨⟩
  exact convertible

theorem Converts.bind {call : Except DartError α} {next : α → Except DartError β}
    (first : Converts call) (second : ∀ value, Converts (next value)) :
    Converts (call >>= next) := by
  cases call with
  | error error =>
      rintro other ⟨⟩
      exact first error rfl
  | ok value => exact second value

theorem converts_need (kind : String) (map : Entries δ) (key : String) :
    Converts (need kind map key) := by
  rw [need]
  split
  · exact converts_ok _
  · exact converts_error rfl

theorem converts_castString (value : Value δ) : Converts (castString value) := by
  cases value with
  | string text => exact converts_ok text
  | _ => exact converts_error rfl

theorem converts_castNullableString (value : Value δ) : Converts (castNullableString value) := by
  cases value with
  | null => exact converts_ok none
  | string text => exact converts_ok (some text)
  | _ => exact converts_error rfl

theorem converts_castBool (value : Value δ) : Converts (castBool value) := by
  cases value with
  | boolean value => exact converts_ok value
  | _ => exact converts_error rfl

theorem converts_castInt (value : Value δ) : Converts (castInt value) := by
  cases value with
  | number value =>
      cases value with
      | int value => exact converts_ok value
      | double value => exact converts_error rfl
  | _ => exact converts_error rfl

theorem converts_castMap (value : Value δ) : Converts (castMap value) := by
  cases value with
  | object entries => exact converts_ok entries
  | _ => exact converts_error rfl

theorem converts_castIntSet (elements : List (Value δ)) : Converts (castIntSet elements) := by
  have all : Converts (elements.mapM castInt) := by
    induction elements with
    | nil => exact converts_ok []
    | cons element rest ih =>
        rw [List.mapM_cons]
        apply (converts_castInt element).bind
        intro value
        apply ih.bind
        intro values
        exact converts_ok (value :: values)
  apply all.bind
  intro values
  exact converts_ok values.toFinset

theorem converts_requireBounded (value : DartString) (maximum : Nat) (field : String) :
    Converts (requireBounded value maximum field) := by
  rw [requireBounded]
  split
  · exact converts_error rfl
  split
  · exact converts_error rfl
  · exact converts_ok ()

end Converts

section FromMap

variable (map : Entries δ) (localToUtc : Int → Int)

theorem converts_boundedField (key : String) (maximum : Nat) :
    Converts (ImportProvenance.boundedField map key maximum) := by
  unfold ImportProvenance.boundedField
  split
  · split
    · exact converts_error rfl
    · exact converts_ok _
  · exact converts_error rfl

theorem ImportProvenance.fromMap_convertible : Converts (ImportProvenance.fromMap map) := by
  unfold ImportProvenance.fromMap
  apply (converts_boundedField map _ _).bind
  intro sourceEventId
  apply (converts_boundedField map _ _).bind
  intro originLabel
  exact converts_ok _

theorem converts_validate (fields : AlarmFields) : Converts fields.validate := by
  unfold AlarmFields.validate
  repeat' split
  all_goals first | exact converts_ok () | exact converts_error rfl

theorem converts_create (fields : AlarmFields) : Converts (AlarmDraft.create fields) := by
  unfold AlarmDraft.create
  split
  · exact converts_ok _
  · rename_i error failed
    exact converts_error (converts_validate fields error failed)

theorem converts_provenanceOf : Converts (AlarmDraft.provenanceOf map) := by
  unfold AlarmDraft.provenanceOf
  split
  · exact converts_ok none
  · apply (converts_castMap _).bind
    intro entries
    apply (ImportProvenance.fromMap_convertible entries).bind
    intro provenance
    exact converts_ok (some provenance)

theorem converts_sourceNamed (value : Value δ) : Converts (AlarmDraft.sourceNamed value) := by
  unfold AlarmDraft.sourceNamed
  repeat' split
  all_goals first | exact converts_ok _ | exact converts_error rfl

/-- A required field of a draft or receipt. -/
theorem converts_field {α : Type} (kind key : String) {cast : Value δ → Except DartError α}
    (casts : ∀ value, Converts (cast value)) : Converts (need kind map key >>= cast) :=
  (converts_need kind map key).bind casts

theorem AlarmDraft.fromMap_convertible : Converts (AlarmDraft.fromMap map) := by
  unfold AlarmDraft.fromMap
  apply (converts_need _ map _).bind
  intro sourceName
  apply (converts_provenanceOf map).bind
  intro provenance
  apply (converts_need _ map _).bind
  intro days
  split
  · apply (converts_field map _ _ converts_castString).bind
    intro id
    apply (converts_field map _ _ converts_castString).bind
    intro label
    apply (converts_field map _ _ converts_castBool).bind
    intro enabled
    apply (converts_field map _ _ converts_castInt).bind
    intro localHour
    apply (converts_field map _ _ converts_castInt).bind
    intro localMinute
    apply (converts_castIntSet _).bind
    intro days
    apply (converts_field map _ _ converts_castString).bind
    intro timezone
    apply (converts_field map _ _ converts_castInt).bind
    intro snoozeMinutes
    apply (converts_field map _ _ converts_castInt).bind
    intro volume
    apply (converts_field map _ _ converts_castString).bind
    intro sound
    apply (converts_sourceNamed _).bind
    intro source
    exact converts_create _
  · exact converts_error rfl

theorem SyncReceipt.fromMap_convertible : Converts (SyncReceipt.fromMap localToUtc map) := by
  unfold SyncReceipt.fromMap
  apply (converts_field map _ _ converts_castNullableString).bind
  intro nextText
  apply (converts_field map _ _ converts_castNullableString).bind
  intro receivedText
  split
  · apply (converts_field map _ _ converts_castInt).bind
    intro appliedRevision
    apply (converts_field map _ _ converts_castInt).bind
    intro alarmCount
    exact converts_ok _
  · exact converts_error rfl

theorem DeviceProfile.fromMap_convertible : Converts (DeviceProfile.fromMap localToUtc map) := by
  have added (value : Value δ) : Converts (DeviceProfile.addedAt localToUtc value) := by
    unfold DeviceProfile.addedAt
    repeat' split
    all_goals first | exact converts_ok _ | exact converts_error rfl
  have validated (fields : ProfileFields) : Converts fields.validate := by
    unfold ProfileFields.validate
    apply (converts_requireBounded _ _ _).bind
    intro _
    apply (converts_requireBounded _ _ _).bind
    intro _
    split
    · exact converts_error rfl
    · exact converts_ok ()
  have created (fields : ProfileFields) : Converts (DeviceProfile.create fields) := by
    unfold DeviceProfile.create
    split
    · exact converts_ok _
    · rename_i error failed
      exact converts_error (validated fields error failed)
  unfold DeviceProfile.fromMap
  split
  · apply (added _).bind
    intro addedAtUtc
    exact created _
  · exact converts_error rfl

end FromMap

end DawnDock.App
