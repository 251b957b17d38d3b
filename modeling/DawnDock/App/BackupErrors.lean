import DawnDock.App.Backup

/-!
What leaves `CompanionBackup.parse` (`parse_throws_backup_iff`): a backup, a
`BackupException`, or the `TypeError` of an export time that is neither a text nor null,
whose cast stands outside the `try` block.
-/

namespace DawnDock.App

variable {δ : Type} {α β : Type}

/-- Every error of the call that is not a `BackupException` is of the kind. -/
def ThrowsOnly (P : DartError → Prop) (call : Except (Thrown δ) α) : Prop :=
  ∀ error, call = .error (.dart error) → P error

section ThrowsOnly

variable {P : DartError → Prop}

theorem throwsOnly_ok (value : α) : ThrowsOnly P (.ok value : Except (Thrown δ) α) := nofun

theorem throwsOnly_backup (exception : BackupException δ) :
    ThrowsOnly P (.error (.backup exception) : Except (Thrown δ) α) := nofun

theorem throwsOnly_refuse (message : String) (path : Option DartString) :
    ThrowsOnly P (refuse message path : Except (Thrown δ) α) := nofun

theorem ThrowsOnly.bind_ok {call : Except (Thrown δ) α} {next : α → Except (Thrown δ) β}
    (first : ThrowsOnly P call) (second : ∀ value, call = .ok value → ThrowsOnly P (next value)) :
    ThrowsOnly P (call >>= next) := by
  cases call with
  | error thrown =>
      rintro error ⟨⟩
      exact first error rfl
  | ok value => exact second value rfl

theorem ThrowsOnly.bind {call : Except (Thrown δ) α} {next : α → Except (Thrown δ) β}
    (first : ThrowsOnly P call) (second : ∀ value, ThrowsOnly P (next value)) :
    ThrowsOnly P (call >>= next) := first.bind_ok fun value _ => second value

theorem throwsOnly_throwing {call : Except DartError α}
    (throws : ∀ error, call = .error error → P error) :
    ThrowsOnly P (throwing call : Except (Thrown δ) α) := by
  cases call with
  | error error =>
      rintro other ⟨⟩
      exact throws error rfl
  | ok value => exact throwsOnly_ok value

theorem throwsOnly_requireList (value : Value δ) (path : String) (maximum : Nat) :
    ThrowsOnly P (CompanionBackup.requireList value path maximum) := by
  unfold CompanionBackup.requireList
  split
  · split
    · exact throwsOnly_refuse _ _
    · exact throwsOnly_ok _
  · exact throwsOnly_refuse _ _

mutual

theorem throwsOnly_scan (platform : Platform δ) (path : DartString) :
    (value : Value δ) → ThrowsOnly P (requireReservedKeyScan platform path value)
  | .object entries => by
      rw [requireReservedKeyScan]
      exact throwsOnly_scanEntries platform path entries
  | .array elements => by
      rw [requireReservedKeyScan]
      exact throwsOnly_scanElements platform path 0 elements
  | .null => by
      rw [requireReservedKeyScan]
      exact throwsOnly_ok ()
  | .boolean _ => by
      rw [requireReservedKeyScan]
      exact throwsOnly_ok ()
  | .number _ => by
      rw [requireReservedKeyScan]
      exact throwsOnly_ok ()
  | .string _ => by
      rw [requireReservedKeyScan]
      exact throwsOnly_ok ()

theorem throwsOnly_scanEntries (platform : Platform δ) (path : DartString) :
    (entries : List (DartString × Value δ)) → ThrowsOnly P (scanEntries platform path entries)
  | [] => by
      rw [scanEntries]
      exact throwsOnly_ok ()
  | (key, value) :: rest => by
      rw [scanEntries]
      split
      · exact throwsOnly_refuse _ _
      · apply (throwsOnly_scan platform _ value).bind
        intro _
        exact throwsOnly_scanEntries platform path rest

theorem throwsOnly_scanElements (platform : Platform δ) (path : DartString) (i : Nat) :
    (elements : List (Value δ)) → ThrowsOnly P (scanElements platform path i elements)
  | [] => by
      rw [scanElements]
      exact throwsOnly_ok ()
  | element :: rest => by
      rw [scanElements]
      apply (throwsOnly_scan platform _ element).bind
      intro _
      exact throwsOnly_scanElements platform path (i + 1) rest

end

end ThrowsOnly

/-! ### The try block -/

namespace CompanionBackup

section Models

variable (platform : Platform δ)

theorem throwsOnly_parseDraftsLoop (path : DartString) (i : Nat) (ids : List DartString)
    (raw : List (Value δ)) :
    ThrowsOnly (·.convertible = true) (parseDraftsLoop path i ids raw) := by
  induction raw generalizing i ids with
  | nil => exact throwsOnly_ok []
  | cons entry rest ih =>
      cases entry with
      | object entries =>
          rw [parseDraftsLoop]
          apply (throwsOnly_throwing (AlarmDraft.fromMap_convertible entries)).bind
          intro draft
          split
          · exact throwsOnly_backup _
          · apply (ih (i + 1) (draft.id :: ids)).bind
            intro drafts
            exact throwsOnly_ok _
      | _ => exact throwsOnly_refuse _ _

theorem throwsOnly_parseProfiles (raw : List (Value δ)) :
    ThrowsOnly (·.convertible = true) (parseProfiles platform raw) := by
  have profile (entry : Value δ) : ThrowsOnly (δ := δ) (·.convertible = true)
      (throwing (castMap entry >>= DeviceProfile.fromMap platform.localToUtc)) :=
    throwsOnly_throwing ((converts_castMap entry).bind fun entries =>
      DeviceProfile.fromMap_convertible entries platform.localToUtc)
  have all : ThrowsOnly (·.convertible = true) (raw.mapM fun entry =>
      throwing (castMap entry >>= DeviceProfile.fromMap platform.localToUtc) :
        Except (Thrown δ) (List DeviceProfile)) := by
    induction raw with
    | nil => exact throwsOnly_ok []
    | cons entry rest ih =>
        rw [List.mapM_cons]
        apply (profile entry).bind
        intro found
        apply ih.bind
        intro others
        exact throwsOnly_ok (found :: others)
  unfold parseProfiles
  apply all.bind
  intro profiles
  split
  · exact throwsOnly_refuse _ _
  · exact throwsOnly_ok profiles

theorem throwsOnly_parseReceipt (knownRevision : Int64) (committed : List AlarmDraft)
    (value : Value δ) :
    ThrowsOnly (·.convertible = true) (parseReceipt platform knownRevision committed value) := by
  unfold parseReceipt
  split
  · exact throwsOnly_ok none
  · apply (throwsOnly_throwing ((converts_castMap value).bind fun entries =>
      SyncReceipt.fromMap_convertible entries platform.localToUtc)).bind
    intro receipt
    split
    · exact throwsOnly_refuse _ _
    split
    · exact throwsOnly_refuse _ _
    · exact throwsOnly_ok (some receipt)

/-- Everything that the models throw is caught. -/
theorem throwsOnly_parseModels (exportedAt : DateTime) (knownRevision : Int64)
    (profilesRaw draftsRaw committedRaw : List (Value δ)) (lastReceipt : Value δ) :
    ThrowsOnly (·.convertible = true) (parseModels platform exportedAt knownRevision profilesRaw
      draftsRaw committedRaw lastReceipt) := by
  unfold parseModels
  apply (throwsOnly_parseProfiles platform profilesRaw).bind
  intro deviceProfiles
  apply (throwsOnly_parseDraftsLoop _ _ _ draftsRaw).bind
  intro drafts
  apply (throwsOnly_parseDraftsLoop _ _ _ committedRaw).bind
  intro committed
  apply (throwsOnly_parseReceipt platform knownRevision committed lastReceipt).bind
  intro receipt
  exact throwsOnly_ok _

theorem throwsOnly_converting {P : DartError → Prop} {call : Except (Thrown δ) α}
    (throws : ThrowsOnly (·.convertible = true) call) : ThrowsOnly P (converting call) := by
  cases call with
  | ok value => exact throwsOnly_ok value
  | error thrown =>
      cases thrown with
      | backup exception => exact throwsOnly_backup exception
      | dart error =>
          have caught := throws error rfl
          rw [converting, Except.mapError]
          dsimp only
          rw [if_pos caught]
          exact throwsOnly_backup _

end Models

/-! ### The whole call -/

section Parse

variable {P : DartError → Prop} (platform : Platform δ)

theorem throwsOnly_parseMirror (exportedAt : DateTime) (profilesRaw draftsRaw : List (Value δ))
    (mirror : Entries δ) :
    ThrowsOnly P (parseMirror platform exportedAt profilesRaw draftsRaw mirror) := by
  unfold parseMirror
  split
  · exact throwsOnly_refuse _ _
  split
  · split
    · exact throwsOnly_refuse _ _
    · refine ThrowsOnly.bind (throwsOnly_requireList _ _ _) ?_
      intro committedRaw
      exact throwsOnly_converting (throwsOnly_parseModels platform _ _ _ _ _ _)
  · exact throwsOnly_refuse _ _

theorem throwsOnly_parseParts (exportedAt : DateTime) (root : Entries δ) :
    ThrowsOnly P (parseParts platform exportedAt root) := by
  unfold parseParts
  refine ThrowsOnly.bind (throwsOnly_requireList _ _ _) ?_
  intro profilesRaw
  refine ThrowsOnly.bind (throwsOnly_requireList _ _ _) ?_
  intro draftsRaw
  split
  · exact throwsOnly_parseMirror platform _ _ _ _
  · exact throwsOnly_refuse _ _

theorem throwsOnly_checkRoot (root : Entries δ) : ThrowsOnly P (checkRoot root) := by
  unfold checkRoot
  split
  · exact throwsOnly_refuse _ _
  split
  · exact throwsOnly_backup _
  split
  · exact throwsOnly_backup _
  · exact throwsOnly_ok ()

/-- The text gets as far as the export time of its root. -/
structure ReachesExportTime (text : DartString) (root : Entries δ) : Prop where
  fits : utf8Length text ≤ kMaxBackupTextBytes
  decodes : platform.jsonDecode text = .ok (.object root)
  scanned : requireReservedKeyScan platform [] (.object root) = .ok ()
  root : checkRoot root = .ok ()

/-- A text or null. -/
def TextOrNull (value : Value δ) : Prop := value = .null ∨ ∃ text, value = .string text

theorem castNullableString_ok (value : Value δ) :
    (∃ text, castNullableString value = .ok text) ↔ TextOrNull value := by
  constructor
  · rintro ⟨text, cast⟩
    cases value with
    | null => exact .inl rfl
    | string text => exact .inr ⟨text, rfl⟩
    | _ => cases cast
  · rintro (rfl | ⟨text, rfl⟩)
    · exact ⟨none, rfl⟩
    · exact ⟨some text, rfl⟩

theorem throwsOnly_parseRoot {root : Entries δ}
    (dated : checkRoot root = .ok () → TextOrNull (index root (utf16 "exportedAtUtc"))) :
    ThrowsOnly P (parseRoot platform root) := by
  unfold parseRoot
  refine ThrowsOnly.bind_ok (throwsOnly_checkRoot root) ?_
  intro _ checked
  obtain ⟨text, cast⟩ := (castNullableString_ok _).mpr (dated checked)
  refine ThrowsOnly.bind_ok (throwsOnly_throwing fun error failed => ?_) ?_
  · rw [cast] at failed
    cases failed
  · intro exportedText _
    split
    · exact throwsOnly_parseParts platform _ root
    · exact throwsOnly_refuse _ _

/-- An export time that is neither a text nor null throws a `TypeError`. -/
theorem parseRoot_typeError {root : Entries δ} (checked : checkRoot root = .ok ())
    (undated : ¬ TextOrNull (index root (utf16 "exportedAtUtc"))) :
    parseRoot platform root = .error (.dart .typeError) := by
  have cast : castNullableString (index root (utf16 "exportedAtUtc")) = .error .typeError := by
    cases value : index root (utf16 "exportedAtUtc") with
    | null => exact absurd (.inl value) undated
    | string text => exact absurd (.inr ⟨text, value⟩) undated
    | _ => rfl
  rw [parseRoot, checked, cast]
  rfl

theorem parse_of_reaches {text : DartString} {root : Entries δ}
    (reaches : ReachesExportTime platform text root) :
    parse platform text = parseRoot platform root := by
  rw [parse, if_neg (Nat.not_lt.mpr reaches.fits), reaches.decodes]
  dsimp only
  rw [reaches.scanned]
  rfl

/-- A call of `parse` returns a backup or throws a `BackupException` if and only if the export
time, wherever it gets to it, is a text or null. -/
theorem parse_throws_backup_iff (text : DartString) :
    ((∃ backup, parse platform text = .ok backup) ∨
        ∃ exception, parse platform text = .error (.backup exception)) ↔
      ∀ root, ReachesExportTime platform text root →
        TextOrNull (index root (utf16 "exportedAtUtc")) := by
  constructor
  · intro either root reaches
    by_contra undated
    have thrown := parseRoot_typeError platform reaches.root undated
    rw [← parse_of_reaches platform reaches] at thrown
    rcases either with ⟨backup, parsed⟩ | ⟨exception, refused⟩
    · rw [thrown] at parsed
      cases parsed
    · rw [thrown] at refused
      cases refused
  · intro dated
    have only : ThrowsOnly (fun _ => False) (parse platform text) := by
      unfold parse
      split
      · exact throwsOnly_refuse _ _
      rename_i fits
      cases decodes : platform.jsonDecode text with
      | error message => exact throwsOnly_backup _
      | ok decoded =>
          refine ThrowsOnly.bind_ok (throwsOnly_scan platform [] decoded) ?_
          intro _ scanned
          split
          · refine throwsOnly_parseRoot platform ?_
            intro checked
            exact dated _ ⟨Nat.not_lt.mp fits, decodes, scanned, checked⟩
          · exact throwsOnly_refuse _ _
    cases result : parse platform text with
    | ok backup => exact .inl ⟨backup, rfl⟩
    | error thrown =>
        cases thrown with
        | backup exception => exact .inr ⟨exception, rfl⟩
        | dart error => exact absurd result (only error)

end Parse

/-- A platform on which `text` decodes to `value`. -/
def decoding (text : DartString) (value : Value δ) : Platform δ where
  jsonDecode other := if other = text then .ok value else .error (utf16 "Unexpected character")
  toLowerCase text := text.map fun unit => if upper unit then unit + 0x20 else unit
  localToUtc := id

theorem decoding_jsonDecode (text : DartString) (value : Value δ) :
    (decoding text value).jsonDecode text = .ok value := if_pos rfl

/-- A document without content, exported at some time. -/
def emptyDocument (exportedAtUtc : Value Empty) : Entries Empty :=
  [(utf16 "format", .string kBackupFormat), (utf16 "version", .number (.int kBackupVersion)),
    (utf16 "exportedAtUtc", exportedAtUtc), (utf16 "deviceProfiles", .array []),
    (utf16 "drafts", .array []),
    (utf16 "scheduleMirror", .object
      [(utf16 "knownRevision", .number (.int 0)), (utf16 "committedAlarms", .array []),
        (utf16 "lastReceipt", .null)])]

/-- The text of that document, with the number 5 for its export time. -/
def numberedExport : DartString :=
  utf16 ("\x7b\"format\":\"dawndock-companion-backup\",\"version\":1,\"exportedAtUtc\":5," ++
    "\"deviceProfiles\":[],\"drafts\":[],\"scheduleMirror\":\x7b\"knownRevision\":0," ++
    "\"committedAlarms\":[],\"lastReceipt\":null\x7d\x7d")

/-- The `TypeError` of its export time leaves `parse`. -/
theorem numberedExport_typeError :
    parse (decoding numberedExport (.object (emptyDocument (.number (.int 5))))) numberedExport =
      .error (.dart .typeError) := by
  have undated : ¬ TextOrNull (index (emptyDocument (.number (.int 5))) (utf16 "exportedAtUtc")) := by
    rintro (null | ⟨text, string⟩)
    · cases null
    · cases string
  have reaches : ReachesExportTime
      (decoding numberedExport (.object (emptyDocument (.number (.int 5))))) numberedExport
      (emptyDocument (.number (.int 5))) := by
    constructor
    · decide +kernel
    · exact decoding_jsonDecode _ _
    · rw [scan_eq_ok]
      decide +kernel
    · rfl
  exact (parse_of_reaches _ reaches).trans (parseRoot_typeError _ reaches.root undated)

end CompanionBackup

end DawnDock.App
