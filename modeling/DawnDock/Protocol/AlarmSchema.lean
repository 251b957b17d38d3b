import DawnDock.Library.JsonSchema
import DawnDock.Protocol.BodyParity

/-!
The schedule body validator against the published schema (`alarm.schema.json`).

`alarmSchema` is the schema with the unit that its lengths are counted in. The standard
counts characters; the validator accepts exactly what conforms when bytes of UTF-8 are
counted (`schedule_body_schema`).
-/

namespace DawnDock

open JsonSchema
open Json (Document)

/-! ### The schema -/

def LowerAlnum (c : Char) : Prop := ('a' ≤ c ∧ c ≤ 'z') ∨ ('0' ≤ c ∧ c ≤ '9')

/-- `^[a-z0-9][a-z0-9._-]{0,63}$` -/
def AlarmIdText (text : List Char) : Prop :=
  ∃ first rest, text = first :: rest ∧ LowerAlnum first ∧ rest.length ≤ 63 ∧
    ∀ c ∈ rest, LowerAlnum c ∨ c = '.' ∨ c = '_' ∨ c = '-'

/-- `^([01][0-9]|2[0-3]):[0-5][0-9]$` -/
def LocalTimeText (text : List Char) : Prop :=
  ∃ tens ones minuteTens minuteOnes, text = [tens, ones, ':', minuteTens, minuteOnes] ∧
    (('0' ≤ tens ∧ tens ≤ '1' ∧ '0' ≤ ones ∧ ones ≤ '9') ∨
      (tens = '2' ∧ '0' ≤ ones ∧ ones ≤ '3')) ∧
    '0' ≤ minuteTens ∧ minuteTens ≤ '5' ∧ '0' ≤ minuteOnes ∧ minuteOnes ≤ '9'

section Schemas

variable (unit : List Char → Nat)

def idSchema : Schema := allOf [type [.string], pattern AlarmIdText]

def labelSchema : Schema := allOf [type [.string], minLength unit 1, maxLength unit 48]

def enabledSchema : Schema := allOf [type [.boolean]]

def localTimeSchema : Schema := allOf [type [.string], pattern LocalTimeText]

def daySchema : Schema := allOf [type [.integer], minimum 0, maximum 6]

def daysSchema : Schema :=
  allOf [type [.array], minItems 1, maxItems 7, uniqueItems, items daySchema]

def timezoneSchema : Schema := allOf [type [.string], minLength unit 3, maxLength unit 64]

def snoozeMinutesSchema : Schema := allOf [type [.integer], minimum 1, maximum 30]

def volumeSchema : Schema := allOf [type [.integer], minimum 0, maximum 100]

def soundSchema : Schema := allOf [type [.string], minLength unit 1, maxLength unit 32]

def sourceSchema : Schema := allOf [type [.string], enum ["manual", "ics"]]

def sourceEventIdSchema : Schema := allOf [type [.string, .null], maxLength unit 128]

/-- `properties` -/
def alarmProperties : List (String × Schema) :=
  [("id", idSchema), ("label", labelSchema unit), ("enabled", enabledSchema),
    ("localTime", localTimeSchema), ("days", daysSchema), ("timezone", timezoneSchema unit),
    ("snoozeMinutes", snoozeMinutesSchema), ("volume", volumeSchema),
    ("sound", soundSchema unit), ("source", sourceSchema),
    ("sourceEventId", sourceEventIdSchema unit)]

def alarmSchema : Schema :=
  allOf [type [.object], closed alarmNames, required alarmNames,
    properties (alarmProperties unit)]

/-- The value of the first member with the key. -/
def valueOf (name : String) : Document → Option Document
  | .object members => member? members name
  | _ => none

/-- A body whose alarms are few, have different ids and conform to the schema. -/
def ScheduleBody (body : Document) : Prop :=
  ∃ alarms, valueOf "alarms" body = some (.array alarms) ∧ alarms.length ≤ 32 ∧
    (alarms.map (valueOf "id")).Nodup ∧ ∀ alarm ∈ alarms, alarmSchema unit alarm

end Schemas

/-- The length that the validator counts. -/
def utf8Bytes (text : List Char) : Nat := (Utf8.encode text).length

/-! ### Texts -/

section Texts

/-- A check on bytes and the texts of a pattern, where both are of ASCII only. -/
theorem pattern_of_ascii {firmware : Text → Bool} {matching : List Char → Prop}
    (narrow : ∀ {bytes}, firmware bytes = true → ∀ b ∈ bytes, b.toNat < 128)
    (narrow_pattern : ∀ {chars}, matching chars → ∀ c ∈ chars, c.toNat < 128)
    (same : ∀ chars : List Char, (∀ c ∈ chars, c.toNat < 128) →
      (firmware (chars.map fun c => UInt8.ofNat c.toNat) = true ↔ matching chars))
    (chars : List Char) : firmware (Utf8.encode chars) = true ↔ matching chars := by
  by_cases ascii : ∀ c ∈ chars, c.toNat < 128
  · have bytes : Utf8.encode chars = chars.map fun c => UInt8.ofNat c.toNat := by
      clear same
      induction chars with
      | nil => rfl
      | cons c chars ih =>
          rw [List.forall_mem_cons] at ascii
          rw [Utf8.encode_cons, Utf16.utf8_ascii ascii.1, ih ascii.2]
          rfl
    rw [bytes]
    exact same chars ascii
  · constructor
    · intro passed
      exfalso
      apply ascii
      intro c mem
      by_contra wide
      obtain ⟨b, b_mem, b_wide⟩ := Utf16.utf8_wide (Nat.not_lt.mp wide)
      have in_text : b ∈ Utf8.encode chars := List.mem_flatMap.mpr ⟨c, mem, b_mem⟩
      exact absurd (narrow passed b in_text) (Nat.not_lt.mpr b_wide)
    · intro matched
      exact absurd (narrow_pattern matched) ascii

theorem char_le {a b : Char} : a ≤ b ↔ a.toNat ≤ b.toNat := by
  rw [Char.le_def, UInt32.le_iff_toNat_le]
  rfl

theorem byte_le {bound : UInt8} {code : Nat} (ascii : code < 128) :
    bound ≤ UInt8.ofNat code ↔ bound.toNat ≤ code := by
  rw [UInt8.le_iff_toNat_le, UInt8.toNat_ofNat', Nat.mod_eq_of_lt (by omega)]

theorem le_byte {bound : UInt8} {code : Nat} (ascii : code < 128) :
    UInt8.ofNat code ≤ bound ↔ code ≤ bound.toNat := by
  rw [UInt8.le_iff_toNat_le, UInt8.toNat_ofNat', Nat.mod_eq_of_lt (by omega)]

/-- A range of ASCII bytes is one of characters. -/
theorem range_iff {low high : UInt8} {first last c : Char} (ascii : c.toNat < 128)
    (lower : low.toNat = first.toNat) (upper : high.toNat = last.toNat) :
    low ≤ UInt8.ofNat c.toNat ∧ UInt8.ofNat c.toNat ≤ high ↔ first ≤ c ∧ c ≤ last := by
  rw [byte_le ascii, le_byte ascii, char_le, char_le, lower, upper]

theorem byte_eq {sign : UInt8} {character c : Char} (ascii : c.toNat < 128)
    (same : sign.toNat = character.toNat) : UInt8.ofNat c.toNat = sign ↔ c = character := by
  rw [← UInt8.toNat_inj, UInt8.toNat_ofNat', Nat.mod_eq_of_lt (by omega), same]
  exact ⟨Utf8.char_eq, congrArg Char.toNat⟩

theorem isLowerAlnum_iff {c : Char} (ascii : c.toNat < 128) :
    isLowerAlnum (UInt8.ofNat c.toNat) = true ↔ LowerAlnum c := by
  rw [isLowerAlnum, Bool.or_eq_true, Bool.and_eq_true, Bool.and_eq_true, decide_eq_true_iff,
    decide_eq_true_iff, decide_eq_true_iff, decide_eq_true_iff, LowerAlnum]
  rw [range_iff ascii (by rfl : (0x61 : UInt8).toNat = 'a'.toNat)
      (by rfl : (0x7a : UInt8).toNat = 'z'.toNat),
    range_iff ascii (by rfl : (0x30 : UInt8).toNat = '0'.toNat)
      (by rfl : (0x39 : UInt8).toNat = '9'.toNat)]

theorem isIdTailChar_iff {c : Char} (ascii : c.toNat < 128) :
    isIdTailChar (UInt8.ofNat c.toNat) = true ↔ LowerAlnum c ∨ c = '.' ∨ c = '_' ∨ c = '-' := by
  rw [isIdTailChar, Bool.or_eq_true, Bool.or_eq_true, Bool.or_eq_true, isLowerAlnum_iff ascii,
    beq_iff_eq, beq_iff_eq, beq_iff_eq, byte_eq ascii (by rfl : (0x2e : UInt8).toNat = '.'.toNat),
    byte_eq ascii (by rfl : (0x5f : UInt8).toNat = '_'.toNat),
    byte_eq ascii (by rfl : (0x2d : UInt8).toNat = '-'.toNat), or_assoc, or_assoc]

theorem ascii_of_le {c last : Char} (le : c ≤ last) (ascii : last.toNat < 128) : c.toNat < 128 :=
  Nat.lt_of_le_of_lt (char_le.mp le) ascii

theorem ascii_of_lowerAlnum {c : Char} (h : LowerAlnum c) : c.toNat < 128 := by
  obtain ⟨-, le⟩ | ⟨-, le⟩ := h
  · exact ascii_of_le le (by decide)
  · exact ascii_of_le le (by decide)

theorem alarmId_iff (chars : List Char) :
    isValidAlarmId (Utf8.encode chars) = true ↔ AlarmIdText chars := by
  apply pattern_of_ascii
  · intro bytes valid
    cases bytes with
    | nil => cases valid
    | cons front tail =>
        rw [isValidAlarmId] at valid
        split at valid
        · cases valid
        rw [Bool.and_eq_true, List.all_eq_true] at valid
        rw [List.forall_mem_cons]
        constructor
        · exact narrow_isLowerAlnum valid.1
        · intro b mem
          exact narrow_isIdTailChar (valid.2 b mem)
  · rintro _ ⟨first, rest, rfl, front, -, tail⟩
    rw [List.forall_mem_cons]
    constructor
    · exact ascii_of_lowerAlnum front
    · intro c mem
      obtain lower | rfl | rfl | rfl := tail c mem
      · exact ascii_of_lowerAlnum lower
      all_goals decide
  · intro chars ascii
    cases chars with
    | nil =>
        constructor
        · intro ok
          cases ok
        · rintro ⟨_, _, empty, -⟩
          cases empty
    | cons first rest =>
        rw [List.forall_mem_cons] at ascii
        rw [List.map_cons, isValidAlarmId, List.length_cons, List.length_map]
        constructor
        · intro valid
          split at valid
          · cases valid
          rename_i short
          rw [kBodyMaximumAlarmIdBytes] at short
          rw [Bool.and_eq_true, List.all_map, List.all_eq_true] at valid
          refine ⟨first, rest, rfl, (isLowerAlnum_iff ascii.1).mp valid.1, by omega, ?_⟩
          intro c mem
          exact (isIdTailChar_iff (ascii.2 c mem)).mp (valid.2 c mem)
        · rintro ⟨_, _, same, front, short, tail⟩
          cases same
          rw [if_neg (by rw [kBodyMaximumAlarmIdBytes]; omega), Bool.and_eq_true, List.all_map,
            List.all_eq_true]
          constructor
          · exact (isLowerAlnum_iff ascii.1).mpr front
          · intro c mem
            exact (isIdTailChar_iff (ascii.2 c mem)).mpr (tail c mem)

/-- The shape that `isValidLocalTime` asks for, byte by byte. -/
theorem isValidLocalTime_iff (tens ones colon minuteTens minuteOnes : UInt8) :
    isValidLocalTime [tens, ones, colon, minuteTens, minuteOnes] = true ↔ colon = 0x3a ∧
      ((0x30 ≤ tens ∧ tens ≤ 0x31 ∧ 0x30 ≤ ones ∧ ones ≤ 0x39) ∨
        (tens = 0x32 ∧ 0x30 ≤ ones ∧ ones ≤ 0x33)) ∧
      0x30 ≤ minuteTens ∧ minuteTens ≤ 0x35 ∧ 0x30 ≤ minuteOnes ∧ minuteOnes ≤ 0x39 := by
  simp only [isValidLocalTime, bne_iff_ne, ne_eq, gt_iff_lt, Bool.or_eq_true, decide_eq_true_eq,
    UInt8.lt_iff_toNat_lt, UInt8.le_iff_toNat_le, ← UInt8.toNat_inj, UInt8.reduceToNat]
  split
  · simp [*]
  split
  · constructor
    · intro ok
      cases ok
    · omega
  · rw [Bool.not_eq_true', Bool.and_eq_false_iff, beq_eq_false_iff_ne, decide_eq_false_iff_not,
      ne_eq, ← UInt8.toNat_inj]
    simp only [UInt8.reduceToNat]
    omega

theorem exists_of_length_five {chars : List Char} (five : chars.length = 5) :
    ∃ a b c d e, chars = [a, b, c, d, e] := by
  match chars, five with
  | [a, b, c, d, e], _ => exact ⟨a, b, c, d, e, rfl⟩

theorem localTime_iff (chars : List Char) :
    isValidLocalTime (Utf8.encode chars) = true ↔ LocalTimeText chars := by
  apply pattern_of_ascii
  · intro bytes valid
    rw [isValidLocalTime.eq_def] at valid
    split at valid
    · rename_i tens ones colon minuteTens minuteOnes
      obtain ⟨rfl, hours, -, minute, -, minutes⟩ := (isValidLocalTime_iff ..).mp valid
      simp only [List.forall_mem_cons, List.not_mem_nil, false_implies, implies_true, and_true]
      refine ⟨?_, ?_, by decide, narrow_of_le minute (by decide),
        narrow_of_le minutes (by decide)⟩
      · obtain ⟨-, le, -⟩ | ⟨rfl, -⟩ := hours
        · exact narrow_of_le le (by decide)
        · decide
      · obtain ⟨-, -, -, le⟩ | ⟨-, -, le⟩ := hours
        · exact narrow_of_le le (by decide)
        · exact narrow_of_le le (by decide)
    · cases valid
  · rintro _ ⟨tens, ones, minuteTens, minuteOnes, rfl, hours, -, minute, -, minutes⟩
    simp only [List.forall_mem_cons, List.not_mem_nil, false_implies, implies_true, and_true]
    refine ⟨?_, ?_, by decide, ascii_of_le minute (by decide), ascii_of_le minutes (by decide)⟩
    · obtain ⟨-, le, -⟩ | ⟨rfl, -⟩ := hours
      · exact ascii_of_le le (by decide)
      · decide
    · obtain ⟨-, -, -, le⟩ | ⟨-, -, le⟩ := hours
      · exact ascii_of_le le (by decide)
      · exact ascii_of_le le (by decide)
  · intro chars ascii
    by_cases five : ∃ tens ones colon minuteTens minuteOnes,
        chars = [tens, ones, colon, minuteTens, minuteOnes]
    · obtain ⟨tens, ones, colon, minuteTens, minuteOnes, rfl⟩ := five
      simp only [List.forall_mem_cons, List.not_mem_nil, false_implies, implies_true,
        and_true] at ascii
      obtain ⟨ascii_tens, ascii_ones, ascii_colon, ascii_minuteTens, ascii_minuteOnes⟩ := ascii
      simp only [List.map_cons, List.map_nil]
      rw [isValidLocalTime_iff, byte_eq ascii_colon (by rfl : (0x3a : UInt8).toNat = ':'.toNat),
        byte_eq ascii_tens (by rfl : (0x32 : UInt8).toNat = '2'.toNat)]
      simp only [byte_le, le_byte, ascii_tens, ascii_ones, ascii_minuteTens, ascii_minuteOnes,
        LocalTimeText, char_le, UInt8.reduceToNat, Char.reduceToNat]
      constructor
      · rintro ⟨rfl, hours, minutes⟩
        exact ⟨tens, ones, minuteTens, minuteOnes, rfl, hours, minutes⟩
      · rintro ⟨_, _, _, _, same, hours, minutes⟩
        cases same
        exact ⟨rfl, hours, minutes⟩
    · constructor
      · intro valid
        rw [isValidLocalTime.eq_def] at valid
        split at valid
        · rename_i shape
          have length := congrArg List.length shape
          rw [List.length_map] at length
          exact absurd (exists_of_length_five length) five
        · cases valid
      · rintro ⟨tens, ones, minuteTens, minuteOnes, rfl, -⟩
        exact absurd ⟨tens, ones, ':', minuteTens, minuteOnes, rfl⟩ five

end Texts

/-! ### Steps of the validator -/

section Steps

variable {members : List (List Char × Document)} {path : Text} {next : BodyCheck Unit}
  {schema : Schema} {rest : Prop} {name : String}

theorem member?_eq_some (distinct : (members.map Prod.fst).Nodup) {value : Document} :
    member? members name = some value ↔ (name.toList, value) ∈ members := by
  rw [member?]
  constructor
  · intro found
    obtain ⟨member, picked, rfl⟩ := Option.map_eq_some_iff.mp found
    have same := List.find?_some (p := fun member : List Char × Document =>
      member.1 == name.toList) picked
    rw [beq_iff_eq] at same
    rw [← same]
    exact List.mem_of_find?_eq_some picked
  · intro mem
    have some : (members.find? fun member => member.1 == name.toList).isSome := by
      rw [List.find?_isSome]
      exact ⟨_, mem, beq_self_eq_true _⟩
    obtain ⟨member, found⟩ := Option.isSome_iff_exists.mp some
    have same := List.find?_some (p := fun member : List Char × Document =>
      member.1 == name.toList) found
    rw [beq_iff_eq] at same
    rw [found, List.inj_on_of_nodup_map distinct (List.mem_of_find?_eq_some found) mem same]
    rfl

theorem has_iff_member (distinct : (members.map Prod.fst).Nodup) :
    Has members name schema ↔ ∃ value, member? members name = some value ∧ schema value := by
  simp only [Has, member?_eq_some distinct]

theorem bind_eq_ok {α : Type} {check : BodyCheck α} {next : α → BodyCheck Unit} :
    (check >>= next) = .ok () ↔ ∃ value, check = .ok value ∧ next value = .ok () := by
  cases check with
  | error =>
      constructor
      · intro ok
        cases ok
      · rintro ⟨_, ⟨⟩, _⟩
  | ok value =>
      constructor
      · intro passed
        exact ⟨value, rfl, passed⟩
      · rintro ⟨_, ⟨⟩, passed⟩
        exact passed

theorem then_eq_ok {check : BodyCheck Unit} :
    (check >>= fun _ => next) = .ok () ↔ check = .ok () ∧ next = .ok () := by
  rw [bind_eq_ok]
  constructor
  · rintro ⟨_, passed, after⟩
    exact ⟨passed, after⟩
  · rintro ⟨passed, after⟩
    exact ⟨(), passed, after⟩

theorem ensure_eq_ok {ok : Bool} {key : Text} : ensure ok path key = .ok () ↔ ok = true := by
  cases ok with
  | true => exact ⟨fun _ => rfl, fun _ => rfl⟩
  | false =>
      constructor
      · intro ok
        cases ok
      · intro ok
        cases ok

theorem requireString_eq_ok {text : Text} :
    requireString (represent (.object members)) (utf8 name) path = .ok text ↔
      ∃ chars, member? members name = some (.string chars) ∧ text = Utf8.encode chars := by
  rw [requireString, findMember_represent]
  cases member? members name with
  | none =>
      constructor
      · intro ok
        cases ok
      · rintro ⟨_, ⟨⟩, _⟩
  | some document =>
      cases document with
      | string chars =>
          constructor
          · rintro ⟨⟩
            exact ⟨chars, rfl, rfl⟩
          · rintro ⟨_, ⟨⟩, rfl⟩
            rfl
      | _ =>
          constructor
          · intro ok
            cases ok
          · rintro ⟨_, ⟨⟩, _⟩

theorem requireInteger_eq_ok {number : Int64} :
    requireInteger (represent (.object members)) (utf8 name) path = .ok number ↔
      ∃ value, member? members name = some (.number value) ∧ number = Int64.ofInt value := by
  rw [requireInteger, findMember_represent]
  cases member? members name with
  | none =>
      constructor
      · intro ok
        cases ok
      · rintro ⟨_, ⟨⟩, _⟩
  | some document =>
      cases document with
      | number value =>
          constructor
          · rintro ⟨⟩
            exact ⟨value, rfl, rfl⟩
          · rintro ⟨_, ⟨⟩, rfl⟩
            rfl
      | _ =>
          constructor
          · intro ok
            cases ok
          · rintro ⟨_, ⟨⟩, _⟩

theorem requireBoolean_eq_ok {flag : Bool} :
    requireBoolean (represent (.object members)) (utf8 name) path = .ok flag ↔
      member? members name = some (.boolean flag) := by
  rw [requireBoolean, findMember_represent]
  cases member? members name with
  | none =>
      constructor
      · intro ok
        cases ok
      · intro ok
        cases ok
  | some document =>
      cases document with
      | boolean value =>
          constructor
          · rintro ⟨⟩
            rfl
          · rintro ⟨⟩
            rfl
      | _ =>
          constructor
          · intro ok
            cases ok
          · intro ok
            cases ok

variable (distinct : (members.map Prod.fst).Nodup) (settled : next = .ok () ↔ rest)

include distinct settled

/-- A string member and the check on it. -/
theorem string_step {firmware : Text → Bool}
    (typed : ∀ document, schema document → ∃ chars, document = .string chars)
    (same : ∀ chars, firmware (Utf8.encode chars) = true ↔ schema (.string chars)) :
    (requireString (represent (.object members)) (utf8 name) path >>= fun text =>
        ensure (firmware text) path (utf8 name) >>= fun _ => next) = .ok () ↔
      Has members name schema ∧ rest := by
  rw [has_iff_member distinct, bind_eq_ok]
  constructor
  · rintro ⟨text, read, passed⟩
    obtain ⟨chars, found, rfl⟩ := requireString_eq_ok.mp read
    obtain ⟨ok, after⟩ := then_eq_ok.mp passed
    exact ⟨⟨_, found, (same chars).mp (ensure_eq_ok.mp ok)⟩, settled.mp after⟩
  · rintro ⟨⟨document, found, conforms⟩, after⟩
    obtain ⟨chars, rfl⟩ := typed document conforms
    refine ⟨_, requireString_eq_ok.mpr ⟨chars, found, rfl⟩, then_eq_ok.mpr ⟨?_, settled.mpr after⟩⟩
    exact ensure_eq_ok.mpr ((same chars).mpr conforms)

theorem integer_step {check : Int64 → Bool}
    (typed : ∀ document, schema document → ∃ value, document = .number value)
    (same : ∀ value, (.number value) ∈ members.map Prod.snd →
      (check (Int64.ofInt value) = true ↔ schema (.number value))) :
    (requireInteger (represent (.object members)) (utf8 name) path >>= fun value =>
        ensure (check value) path (utf8 name) >>= fun _ => next) = .ok () ↔
      Has members name schema ∧ rest := by
  have mem {value : Document} (found : member? members name = some value) :
      value ∈ members.map Prod.snd :=
    List.mem_map.mpr ⟨_, (member?_eq_some distinct).mp found, rfl⟩
  rw [has_iff_member distinct, bind_eq_ok]
  constructor
  · rintro ⟨number, read, passed⟩
    obtain ⟨value, found, rfl⟩ := requireInteger_eq_ok.mp read
    obtain ⟨ok, after⟩ := then_eq_ok.mp passed
    exact ⟨⟨_, found, (same value (mem found)).mp (ensure_eq_ok.mp ok)⟩, settled.mp after⟩
  · rintro ⟨⟨document, found, conforms⟩, after⟩
    obtain ⟨value, rfl⟩ := typed document conforms
    refine ⟨_, requireInteger_eq_ok.mpr ⟨value, found, rfl⟩,
      then_eq_ok.mpr ⟨?_, settled.mpr after⟩⟩
    exact ensure_eq_ok.mpr ((same value (mem found)).mpr conforms)

theorem boolean_step :
    (requireBoolean (represent (.object members)) (utf8 name) path >>= fun _ => next) = .ok () ↔
      Has members name enabledSchema ∧ rest := by
  rw [has_iff_member distinct, bind_eq_ok]
  constructor
  · rintro ⟨flag, read, after⟩
    refine ⟨⟨_, requireBoolean_eq_ok.mp read, ?_⟩, settled.mp after⟩
    simp [enabledSchema, typeOf]
  · rintro ⟨⟨document, found, conforms⟩, after⟩
    cases document with
    | boolean flag => exact ⟨flag, requireBoolean_eq_ok.mpr found, settled.mpr after⟩
    | _ => simp [enabledSchema, typeOf] at conforms

end Steps

/-! ### Members -/

section Values

theorem idSchema_iff (chars : List Char) :
    isValidAlarmId (Utf8.encode chars) = true ↔ idSchema (.string chars) := by
  rw [alarmId_iff]
  simp [idSchema, typeOf, pattern]

theorem localTimeSchema_iff (chars : List Char) :
    isValidLocalTime (Utf8.encode chars) = true ↔ localTimeSchema (.string chars) := by
  rw [localTime_iff]
  simp [localTimeSchema, typeOf, pattern]

/-- A text of at least one byte and at most so many. -/
theorem short_iff (maximum : Nat) (chars : List Char) :
    (!((Utf8.encode chars).isEmpty || (Utf8.encode chars).length > maximum)) = true ↔
      allOf [type [.string], minLength utf8Bytes 1, maxLength utf8Bytes maximum]
        (.string chars) := by
  simp only [allOf_cons, allOf_nil, type_singleton, typeOf, minLength, maxLength, utf8Bytes,
    true_and, and_true]
  rw [Bool.not_eq_true', Bool.or_eq_false_iff, decide_eq_false_iff_not, Nat.not_lt,
    ← Bool.not_eq_true, List.isEmpty_iff_length_eq_zero, ← ne_eq, ← Nat.pos_iff_ne_zero]
  rfl

theorem timezoneSchema_iff (chars : List Char) :
    (!((Utf8.encode chars).length < 3 ||
        (Utf8.encode chars).length > kBodyMaximumTimezoneBytes)) = true ↔
      timezoneSchema utf8Bytes (.string chars) := by
  simp only [timezoneSchema, allOf_cons, allOf_nil, type_singleton, typeOf, minLength, maxLength,
    utf8Bytes, true_and, and_true]
  rw [Bool.not_eq_true', Bool.or_eq_false_iff, decide_eq_false_iff_not, decide_eq_false_iff_not,
    Nat.not_lt, Nat.not_lt]
  rfl

theorem sourceSchema_iff (chars : List Char) :
    (!(Utf8.encode chars != utf8 "manual" && Utf8.encode chars != utf8 "ics")) = true ↔
      sourceSchema (.string chars) := by
  simp only [sourceSchema, allOf_cons, allOf_nil, type_singleton, typeOf, enum, true_and,
    and_true]
  rw [Bool.not_eq_true', Bool.and_eq_false_iff, bne_eq_false_iff_eq, bne_eq_false_iff_eq, utf8_eq,
    utf8_eq, Utf8.encode_injective.eq_iff, Utf8.encode_injective.eq_iff]
  simp

/-- An integer within bounds. -/
theorem bounded_iff {low high : Int64} {least greatest value : Int} (fits : FitsInt64 value)
    (lower : low.toInt = least) (upper : high.toInt = greatest) :
    (!(Int64.ofInt value < low || Int64.ofInt value > high)) = true ↔
      allOf [type [.integer], minimum least, maximum greatest] (.number value) := by
  simp only [allOf_cons, allOf_nil, type_singleton, typeOf, minimum, maximum, true_and, and_true]
  rw [Bool.not_eq_true', Bool.or_eq_false_iff, decide_eq_false_iff_not, decide_eq_false_iff_not,
    Int64.lt_iff_toInt_lt, gt_iff_lt, Int64.lt_iff_toInt_lt, Int64.toInt_ofInt_of_le fits.1 fits.2,
    lower, upper, Int.not_lt, Int.not_lt]

theorem daySchema_iff {value : Int} (fits : FitsInt64 value) :
    daySchema (.number value) ↔ (Int64.ofInt value < 0 || Int64.ofInt value > 6) = false := by
  rw [← Bool.not_eq_true']
  exact (bounded_iff fits (by decide) (by decide)).symm

/-- The loop over the days, behind the days it has seen. -/
theorem checkDays_iff {path : Text} (days : List Document) (index : Nat) (seen : List Int)
    (fits : ∀ value, .number value ∈ days → FitsInt64 value)
    (fits_seen : ∀ value ∈ seen, FitsInt64 value) :
    checkDays path index (seen.map Int64.ofInt) (days.map represent) = .ok () ↔
      (∀ day ∈ days, daySchema day) ∧ days.Nodup ∧ ∀ value ∈ seen, .number value ∉ days := by
  induction days generalizing index seen with
  | nil =>
      refine ⟨fun _ => ⟨List.forall_mem_nil _, List.nodup_nil, ?_⟩, fun _ => rfl⟩
      intro _ _ mem
      cases mem
  | cons day days ih =>
      cases day with
      | number value =>
          have fit : FitsInt64 value := fits value List.mem_cons_self
          have later : ∀ value, .number value ∈ days → FitsInt64 value :=
            fun value mem => fits value (List.mem_cons_of_mem _ mem)
          have again : (seen.map Int64.ofInt).contains (Int64.ofInt value) = true ↔ value ∈ seen := by
            rw [List.contains_iff_mem, List.mem_map]
            constructor
            · rintro ⟨other, mem, same⟩
              have fit_other := fits_seen other mem
              have equal := congrArg Int64.toInt same
              rw [Int64.toInt_ofInt_of_le fit_other.1 fit_other.2,
                Int64.toInt_ofInt_of_le fit.1 fit.2] at equal
              rwa [← equal]
            · intro mem
              exact ⟨value, mem, rfl⟩
          rw [List.map_cons]
          change checkDays path index (seen.map Int64.ofInt)
            (.number (Int64.ofInt value) :: days.map represent) = .ok () ↔ _
          rw [checkDays, List.forall_mem_cons, List.nodup_cons, daySchema_iff fit]
          by_cases range : (Int64.ofInt value < 0 || Int64.ofInt value > 6) = true
          · rw [if_pos range, range]
            constructor
            · intro ok
              cases ok
            · intro h
              cases h.1.1
          rw [if_neg range, Bool.not_eq_true _ |>.mp range]
          by_cases mem : value ∈ seen
          · rw [if_pos (again.mpr mem)]
            constructor
            · intro ok
              cases ok
            · intro h
              exact absurd List.mem_cons_self (h.2.2 value mem)
          rw [if_neg fun found => mem (again.mp found), ← List.map_cons,
            ih (index + 1) (value :: seen) later (List.forall_mem_cons.mpr ⟨fit, fits_seen⟩),
            List.forall_mem_cons]
          simp only [List.mem_cons, Json.number.injEq, not_or]
          constructor
          · rintro ⟨conform, nodup, fresh, unseen⟩
            refine ⟨⟨trivial, conform⟩, ⟨fresh, nodup⟩, ?_⟩
            intro other other_mem
            exact ⟨fun same => mem (same ▸ other_mem), unseen other other_mem⟩
          · rintro ⟨⟨-, conform⟩, ⟨fresh, nodup⟩, unseen⟩
            exact ⟨conform, nodup, fresh, fun other other_mem => (unseen other other_mem).2⟩
      | _ =>
          constructor
          · intro ok
            cases ok
          · rintro ⟨conform, -⟩
            obtain ⟨value, same⟩ := number_of_type (conform _ List.mem_cons_self)
            cases same

end Values

/-! ### Alarms and bodies -/

section Bodies

theorem fits_of_within {value : Int} (within : AllWithin (.number value)) : FitsInt64 value := by
  have fits := within (.number value) (by simp [Json.values])
  exact fits

theorem forEach_eq_ok {α : Type} {check : α → BodyCheck Unit} {list : List α} :
    forEach check list = .ok () ↔ ∀ item ∈ list, check item = .ok () := by
  induction list with
  | nil => exact ⟨fun _ => List.forall_mem_nil _, fun _ => rfl⟩
  | cons item list ih => rw [forEach, then_eq_ok, ih, List.forall_mem_cons]

variable {members : List (List Char × Document)} {path : Text} {next : BodyCheck Unit}
  {rest : Prop}

theorem checkAlarmDays_iff {days : List Document} (within : AllWithin (.array days))
    (found : member? members "days" = some (.array days)) :
    checkAlarmDays (represent (.object members)) path = .ok () ↔ daysSchema (.array days) := by
  have fits (value : Int) (listed : .number value ∈ days) : FitsInt64 value :=
    fits_of_within (allWithin_array.mp within _ listed)
  have each := @checkDays_iff (childPath path (utf8 "days")) days 0 [] fits
    (List.forall_mem_nil _)
  rw [checkAlarmDays, findMember_represent, found, Option.map_some, represent_array]
  dsimp only
  rw [List.isEmpty_map, List.length_map]
  simp only [daysSchema, allOf_cons, allOf_nil, type_singleton, typeOf, minItems, maxItems,
    uniqueItems, items, true_and, and_true]
  by_cases size : (days.isEmpty || decide (days.length > 7)) = true
  · rw [if_pos size]
    constructor
    · intro ok
      cases ok
    · rintro ⟨nonempty, short, -⟩
      rw [Bool.or_eq_true, decide_eq_true_iff, List.isEmpty_iff_length_eq_zero] at size
      omega
  · rw [if_neg size]
    apply Iff.trans each
    rw [Bool.or_eq_true, decide_eq_true_iff, List.isEmpty_iff_length_eq_zero] at size
    constructor
    · rintro ⟨conform, nodup, -⟩
      exact ⟨by omega, by omega, nodup, conform⟩
    · rintro ⟨-, -, nodup, conform⟩
      exact ⟨conform, nodup, List.forall_mem_nil _⟩

theorem days_step (distinct : (members.map Prod.fst).Nodup)
    (within : ∀ member ∈ members, AllWithin member.2) (settled : next = .ok () ↔ rest) :
    (checkAlarmDays (represent (.object members)) path >>= fun _ => next) = .ok () ↔
      Has members "days" daysSchema ∧ rest := by
  rw [then_eq_ok, settled, has_iff_member distinct]
  constructor
  · rintro ⟨passed, after⟩
    refine ⟨?_, after⟩
    rw [checkAlarmDays, findMember_represent] at passed
    cases found : member? members "days" with
    | none =>
        rw [found] at passed
        cases passed
    | some document =>
        rw [found] at passed
        cases document with
        | array days =>
            refine ⟨_, rfl, ?_⟩
            apply (@checkAlarmDays_iff members path days
              (within _ ((member?_eq_some distinct).mp found)) found).mp
            rw [checkAlarmDays, findMember_represent, found]
            exact passed
        | _ => cases passed
  · rintro ⟨⟨document, found, conforms⟩, after⟩
    obtain ⟨days, rfl⟩ := array_of_type conforms
    exact ⟨(checkAlarmDays_iff (within _ ((member?_eq_some distinct).mp found)) found).mpr conforms,
      after⟩

theorem sourceEventId_step (distinct : (members.map Prod.fst).Nodup) :
    checkSourceEventId (represent (.object members)) path = .ok () ↔
      Has members "sourceEventId" (sourceEventIdSchema utf8Bytes) := by
  rw [has_iff_member distinct, checkSourceEventId, findMember_represent]
  cases member? members "sourceEventId" with
  | none =>
      constructor
      · intro ok
        cases ok
      · rintro ⟨_, ⟨⟩, _⟩
  | some document =>
      simp only [Option.map_some, Option.some.injEq, exists_eq_left', sourceEventIdSchema,
        allOf_cons, allOf_nil, type_pair, and_true]
      cases document with
      | string chars =>
          change ensure (decide ((Utf8.encode chars).length ≤ kBodyMaximumSourceEventIdBytes)) path
            (utf8 "sourceEventId") = .ok () ↔ _
          rw [ensure_eq_ok, decide_eq_true_iff]
          exact ⟨fun short => ⟨.inl rfl, short⟩, fun conforms => conforms.2⟩
      | null => exact ⟨fun _ => ⟨.inr rfl, trivial⟩, fun _ => rfl⟩
      | _ =>
          constructor
          · intro ok
            cases ok
          · rintro ⟨typed | typed, -⟩
            · cases typed
            · cases typed

theorem checkMissingRequired_iff (names : List String) :
    checkMissingRequired (represent (.object members)) path (names.map utf8) = .ok () ↔
      ∀ name ∈ names, (member? members name).isSome = true := by
  rw [checkMissingRequired, forEach_eq_ok, List.forall_mem_map]
  apply forall₂_congr
  intro name mem
  rw [hasMember_represent]
  cases (member? members name).isSome with
  | true => exact ⟨fun _ => rfl, fun _ => rfl⟩
  | false =>
      constructor
      · intro ok
        cases ok
      · intro ok
        cases ok

theorem checkNoUnknownKeys_iff (names : List String) :
    checkNoUnknownKeys (represent (.object members)) path (names.map utf8) = .ok () ↔
      ∀ member ∈ members, member.1 ∈ names.map String.toList := by
  rw [checkNoUnknownKeys, forEach_eq_ok, represent_object, memberKeys, List.map_map,
    List.forall_mem_map]
  apply forall₂_congr
  intro member mem
  have same : (names.map utf8).contains (representMember member).1 = true ↔
      member.1 ∈ names.map String.toList := by
    rw [List.contains_iff_mem, List.mem_map, List.mem_map]
    apply exists_congr
    intro name
    rw [utf8_eq, representMember, Utf8.encode_injective.eq_iff]
  rw [← same, Function.comp_apply]
  cases (names.map utf8).contains (representMember member).1 with
  | true => exact ⟨fun _ => rfl, fun _ => rfl⟩
  | false =>
      constructor
      · intro ok
        cases ok
      · intro ok
        cases ok

theorem distinct_of_within (within : AllWithin (.object members)) :
    (members.map Prod.fst).Nodup := by
  have limits := within (.object members) (by simp [Json.values])
  exact limits.1

theorem within_member (within : AllWithin (.object members)) :
    ∀ member ∈ members, AllWithin member.2 := by
  intro member mem
  exact ((allWithin_object.mp within).2 member mem).2

theorem alarmProperties_names (unit : List Char → Nat) :
    (alarmProperties unit).map Prod.fst = alarmNames := rfl

/-- The validator accepts an alarm exactly when it conforms, lengths counted in bytes. -/
theorem validateAlarm_iff {document : Document} (within : AllWithin document) :
    validateAlarm (represent document) path = .ok () ↔ alarmSchema utf8Bytes document := by
  cases document with
  | object members =>
      have distinct := distinct_of_within within
      have inside := within_member within
      have fits (value : Int) (mem : .number value ∈ members.map Prod.snd) : FitsInt64 value := by
        obtain ⟨member, mem, same⟩ := List.mem_map.mp mem
        exact fits_of_within (same ▸ inside member mem)
      have each : validateAlarm (represent (.object members)) path = .ok () ↔
          (∀ name ∈ alarmNames, (member? members name).isSome = true) ∧
            (∀ member ∈ members, member.1 ∈ alarmNames.map String.toList) ∧
            ∀ entry ∈ alarmProperties utf8Bytes, Has members entry.1 entry.2 := by
        rw [validateAlarm, isObject_represent, Bool.not_true, if_neg Bool.false_ne_true]
        simp only [alarmProperties, List.forall_mem_cons]
        rw [then_eq_ok, then_eq_ok]
        apply and_congr (checkMissingRequired_iff alarmNames)
        apply and_congr (checkNoUnknownKeys_iff alarmNames)
        apply string_step distinct _ (fun _ => string_of_type) idSchema_iff
        apply string_step distinct _ (fun _ => string_of_type) (short_iff kBodyMaximumLabelBytes)
        apply boolean_step distinct
        apply string_step distinct _ (fun _ => string_of_type) localTimeSchema_iff
        apply days_step distinct inside
        apply string_step distinct _ (fun _ => string_of_type) timezoneSchema_iff
        apply integer_step distinct _ (fun _ => number_of_type)
          fun value mem => bounded_iff (fits value mem) (by decide) (by decide)
        apply integer_step distinct _ (fun _ => number_of_type)
          fun value mem => bounded_iff (fits value mem) (by decide) (by decide)
        apply string_step distinct _ (fun _ => string_of_type) (short_iff kBodyMaximumSoundBytes)
        apply string_step distinct _ (fun _ => string_of_type) sourceSchema_iff
        rw [sourceEventId_step distinct, iff_self_and]
        exact fun _ => List.forall_mem_nil _
      rw [each, alarmSchema, ← alarmProperties_names utf8Bytes, object_iff distinct,
        alarmProperties_names]
      constructor
      · rintro ⟨-, only, has⟩
        exact ⟨only, has⟩
      · rintro ⟨only, has⟩
        refine ⟨?_, only, has⟩
        intro name mem
        rw [← alarmProperties_names utf8Bytes] at mem
        obtain ⟨entry, entry_mem, rfl⟩ := List.mem_map.mp mem
        obtain ⟨value, found, -⟩ := (has_iff_member distinct).mp (has entry entry_mem)
        rw [found]
        rfl
  | _ =>
      constructor
      · intro ok
        cases ok
      · intro conforms
        obtain ⟨members, same⟩ := object_of_type conforms
        cases same

theorem checkAlarms_iff {documents : List Document} (index : Nat)
    (within : ∀ document ∈ documents, AllWithin document) :
    checkAlarms index (documents.map represent) = .ok () ↔
      ∀ document ∈ documents, alarmSchema utf8Bytes document := by
  induction documents generalizing index with
  | nil => exact ⟨fun _ => List.forall_mem_nil _, fun _ => rfl⟩
  | cons document documents ih =>
      rw [List.forall_mem_cons] at within
      rw [List.map_cons, checkAlarms, then_eq_ok, validateAlarm_iff within.1, ih _ within.2,
        List.forall_mem_cons]

/-- An alarm that conforms has an id. -/
theorem id_of_conforms {document : Document} (within : AllWithin document)
    (conforms : alarmSchema utf8Bytes document) :
    ∃ chars, valueOf "id" document = some (.string chars) ∧
      idText (represent document) = some (Utf8.encode chars) := by
  obtain ⟨members, rfl⟩ := object_of_type conforms
  have distinct := distinct_of_within within
  rw [alarmSchema, ← alarmProperties_names utf8Bytes, object_iff distinct] at conforms
  obtain ⟨document, found, id⟩ :=
    (has_iff_member distinct).mp (conforms.2 ("id", idSchema) List.mem_cons_self)
  obtain ⟨chars, rfl⟩ := string_of_type id
  refine ⟨chars, found, ?_⟩
  rw [idText, findMember_represent, found]
  rfl

theorem ids_of_conforms {documents : List Document}
    (within : ∀ document ∈ documents, AllWithin document)
    (conform : ∀ document ∈ documents, alarmSchema utf8Bytes document) :
    ∃ ids : List (List Char), documents.map (valueOf "id") = ids.map (fun id => some (.string id)) ∧
      (documents.map represent).map idText = ids.map fun id => some (Utf8.encode id) := by
  induction documents with
  | nil => exact ⟨[], rfl, rfl⟩
  | cons document documents ih =>
      rw [List.forall_mem_cons] at within conform
      obtain ⟨ids, values, texts⟩ := ih within.2 conform.2
      obtain ⟨id, value, text⟩ := id_of_conforms within.1 conform.1
      refine ⟨id :: ids, ?_, ?_⟩
      · rw [List.map_cons, List.map_cons, value, values]
      · rw [List.map_cons, List.map_cons, List.map_cons, text, texts]

/-- The alarms of a body: each conforms, and their ids differ. -/
theorem alarms_iff {documents : List Document}
    (within : ∀ document ∈ documents, AllWithin document) :
    (checkAlarms 0 (documents.map represent) >>= fun _ =>
        checkDuplicates 0 (documents.map represent)) = .ok () ↔
      (documents.map (valueOf "id")).Nodup ∧
        ∀ document ∈ documents, alarmSchema utf8Bytes document := by
  rw [then_eq_ok, checkAlarms_iff 0 within, and_comm, and_congr_left_iff]
  intro conform
  obtain ⟨ids, values, texts⟩ := ids_of_conforms within conform
  obtain ⟨distinct, repeated⟩ := checkDuplicates_ids 0 texts
  have injective : Function.Injective fun id : List Char => some (Json.string id : Document) := by
    intro first second same
    exact Json.string.inj (Option.some.inj same)
  rw [values, List.nodup_map_iff injective]
  constructor
  · intro passed
    by_contra nodup
    obtain ⟨path, failed⟩ := repeated nodup
    rw [failed] at passed
    cases passed
  · exact distinct

theorem validateScheduleBody_iff {document : Document} (within : AllWithin document) :
    validateScheduleBody (represent document) = .ok () ↔ ScheduleBody utf8Bytes document := by
  cases document with
  | object members =>
      have distinct := distinct_of_within within
      rw [validateScheduleBody, findMember_represent, ScheduleBody, valueOf]
      cases found : member? members "alarms" with
      | none =>
          constructor
          · intro ok
            cases ok
          · rintro ⟨_, ⟨⟩, _⟩
      | some document =>
          have inside := within_member within _ ((member?_eq_some distinct).mp found)
          rw [Option.map_some]
          simp only [Option.some.injEq]
          cases document with
          | array alarms =>
              rw [represent_array]
              dsimp only
              rw [List.length_map]
              simp only [Json.array.injEq, exists_eq_left']
              by_cases many : alarms.length > kBodyMaximumAlarms
              · rw [if_pos many]
                constructor
                · intro ok
                  cases ok
                · intro body
                  exact absurd body.1 (Nat.not_le.mpr many)
              · rw [if_neg many, alarms_iff (allWithin_array.mp inside)]
                exact ⟨fun alarms => ⟨Nat.not_lt.mp many, alarms⟩, fun body => body.2⟩
          | _ =>
              constructor
              · intro ok
                cases ok
              · rintro ⟨_, ⟨⟩, _⟩
  | _ =>
      constructor
      · intro ok
        cases ok
      · rintro ⟨_, ⟨⟩, _⟩

end Bodies

/-- The types whose body is a schedule. -/
def scheduleTypes : List Text := [utf8 "schedule.preview", utf8 "schedule.apply"]

theorem accepted_iff {document : Document} {type : Text} (schedule : type ∈ scheduleTypes)
    (within : AllWithin document) :
    (validateProtocolMessageBody (represent document) type).accepted = true ↔
      ScheduleBody utf8Bytes document := by
  have listed : (type == utf8 "schedule.preview" || type == utf8 "schedule.apply") = true := by
    rw [scheduleTypes, List.mem_cons, List.mem_singleton] at schedule
    rw [Bool.or_eq_true, beq_iff_eq, beq_iff_eq]
    exact schedule
  rw [← validateScheduleBody_iff within, validateProtocolMessageBody]
  cases document with
  | object members =>
      rw [isObject_represent, Bool.not_true, if_neg Bool.false_ne_true, if_pos listed]
      obtain ⟨passed, -⟩ | ⟨reason, path, failed, -⟩ := @agrees_scheduleBody Empty members
      · rw [passed]
        exact ⟨fun _ => rfl, fun _ => rfl⟩
      · rw [failed]
        constructor
        · intro ok
          cases ok
        · intro ok
          cases ok
  | _ =>
      constructor
      · intro ok
        cases ok
      · intro ok
        cases ok

/-- For a text that the parser accepts, the validator accepts the body that it spells exactly
when its alarms are at most 32, have different ids and conform to the schema, the lengths of
strings being counted in bytes of UTF-8. -/
theorem schedule_body_schema (text : ByteCodec.Bytes) (value : JsonValue)
    (parsed : parseJson text = .ok value) :
    (∃ document, Spells text document) ∧ ∀ document, Spells text document →
      value = represent document ∧ ∀ type ∈ scheduleTypes,
        ((validateProtocolMessageBody value type).accepted = true ↔
          ScheduleBody utf8Bytes document) := by
  obtain ⟨nonempty, short, document, spelled, count, within, -⟩ :=
    (parseJson_ok_iff text value).mp parsed
  constructor
  · exact ⟨document, spelled, count, within⟩
  · intro other spells
    have read := (parseJson_ok_iff text (represent other)).mpr
      ⟨nonempty, short, other, spells.spelled, spells.count, spells.within, rfl⟩
    obtain rfl : value = represent other := Except.ok.inj (parsed.symm.trans read)
    exact ⟨rfl, fun type schedule => accepted_iff schedule spells.within⟩

set_option maxRecDepth 20000 in
/-- One alarm. -/
theorem schedule_body_schema_labelled :
    parseJson (bodyText ['a']) = .ok (represent (bodyLabelled ['a'])) ∧
      (∃ document, Spells (bodyText ['a']) document) ∧
      ∀ document, Spells (bodyText ['a']) document →
        ScheduleBody utf8Bytes document ∧ ∀ type ∈ scheduleTypes,
          (validateProtocolMessageBody (represent (bodyLabelled ['a'])) type).accepted = true := by
  have parsed : parseJson (bodyText ['a']) = .ok (represent (bodyLabelled ['a'])) := rfl
  have accepted : ∀ type ∈ scheduleTypes,
      (validateProtocolMessageBody (represent (bodyLabelled ['a'])) type).accepted = true := by
    decide +kernel
  obtain ⟨spelled, read⟩ := schedule_body_schema _ _ parsed
  refine ⟨parsed, spelled, fun document spells => ⟨?_, accepted⟩⟩
  obtain ⟨-, agrees⟩ := read document spells
  have first : utf8 "schedule.preview" ∈ scheduleTypes := by decide
  exact (agrees _ first).mp (accepted _ first)

/-! ### Characters and bytes -/

section Injective

theorem eq_of_map_eq {α β : Type} {f : α → β} {first second : List α}
    (inj : ∀ a ∈ first, ∀ b ∈ second, f a = f b → a = b) (same : first.map f = second.map f) :
    first = second := by
  induction first generalizing second with
  | nil => exact (List.map_eq_nil_iff.mp same.symm).symm
  | cons a first ih =>
      cases second with
      | nil => cases same
      | cons b second =>
          obtain ⟨head, tail⟩ := List.cons.inj same
          rw [inj a List.mem_cons_self b List.mem_cons_self head,
            ih (fun a ha b hb => inj a (List.mem_cons_of_mem _ ha) b (List.mem_cons_of_mem _ hb))
              tail]

/-- Documents within the limits differ in the parser as well. -/
theorem represent_inj (a b : Document) (within_a : AllWithin a) (within_b : AllWithin b)
    (same : represent a = represent b) : a = b := by
  match a, b with
  | .null, .null => rfl
  | .boolean _, .boolean _ => exact congrArg Json.boolean (Json.boolean.inj same)
  | .string _, .string _ =>
      exact congrArg Json.string (Utf8.encode_injective (Json.string.inj same))
  | .number first, .number second =>
      have fits_a := fits_of_within within_a
      have fits_b := fits_of_within within_b
      have equal := congrArg Int64.toInt (Json.number.inj same)
      rw [Int64.toInt_ofInt_of_le fits_a.1 fits_a.2,
        Int64.toInt_ofInt_of_le fits_b.1 fits_b.2] at equal
      rw [equal]
  | .array first, .array second =>
      rw [represent_array, represent_array] at same
      congr 1
      apply eq_of_map_eq _ (Json.array.inj same)
      intro x x_mem y y_mem
      exact represent_inj x y (allWithin_array.mp within_a x x_mem)
        (allWithin_array.mp within_b y y_mem)
  | .object first, .object second =>
      rw [represent_object, represent_object] at same
      congr 1
      apply eq_of_map_eq _ (Json.object.inj same)
      intro x x_mem y y_mem equal
      obtain ⟨key, value⟩ := Prod.mk.inj equal
      apply Prod.ext (Utf8.encode_injective key)
      exact represent_inj x.2 y.2 (within_member within_a x x_mem) (within_member within_b y y_mem)
        value
termination_by sizeOf a
decreasing_by
  · have smaller := List.sizeOf_lt_of_mem x_mem
    simp only [Json.array.sizeOf_spec]
    omega
  · have smaller := List.sizeOf_lt_of_mem x_mem
    have inner : sizeOf x.2 < sizeOf x := by
      obtain ⟨key, value⟩ := x
      simp only [Prod.mk.sizeOf_spec]
      omega
    simp only [Json.object.sizeOf_spec]
    omega

end Injective

def wideLabel : List Char := List.replicate 25 'é'

/-- A text spells one document. -/
theorem spells_of_parsed {text : ByteCodec.Bytes} {document : Document}
    (parsed : parseJson text = .ok (represent document)) (within : AllWithin document) :
    Spells text document := by
  obtain ⟨-, -, other, spelled, count, other_within, same⟩ := (parseJson_ok_iff _ _).mp parsed
  obtain rfl := represent_inj document other within other_within same
  exact ⟨spelled, count, within⟩

instance : DecidablePred WithinLimits := fun document =>
  match document with
  | .number value => inferInstanceAs (Decidable (-2 ^ 63 ≤ value ∧ value < 2 ^ 63))
  | .string text => inferInstanceAs (Decidable ((Utf8.encode text).length ≤ _))
  | .object members => inferInstanceAs (Decidable ((members.map Prod.fst).Nodup ∧
      ∀ member ∈ members, (Utf8.encode member.1).length ≤ kJsonMaximumStringBytes))
  | .null | .boolean _ | .array _ => inferInstanceAs (Decidable True)

instance (document : Document) : Decidable (AllWithin document) :=
  inferInstanceAs (Decidable (∀ value ∈ document.values, WithinLimits value))

theorem conforms_labelled : alarmSchema List.length (alarmLabelled wideLabel) := by
  rw [alarmSchema, ← alarmProperties_names List.length, alarmLabelled, object_iff (by decide +kernel)]
  constructor
  · decide +kernel
  simp only [alarmProperties, List.forall_mem_cons]
  refine ⟨⟨.string ['a'], by simp, ?_⟩, ⟨.string wideLabel, by simp, ?_⟩,
    ⟨.boolean true, by simp, ?_⟩, ⟨.string "07:00".toList, by simp, ?_⟩,
    ⟨.array [.number 1], by simp, ?_⟩, ⟨.string "UTC".toList, by simp, ?_⟩,
    ⟨.number 1, by simp, ?_⟩, ⟨.number 0, by simp, ?_⟩, ⟨.string ['a'], by simp, ?_⟩,
    ⟨.string "ics".toList, by simp, ?_⟩, ⟨.null, by simp, ?_⟩, List.forall_mem_nil _⟩
  · exact (idSchema_iff ['a']).mp (by decide +kernel)
  · simp [labelSchema, typeOf, minLength, maxLength, wideLabel]
  · simp [enabledSchema, typeOf]
  · exact (localTimeSchema_iff "07:00".toList).mp (by decide +kernel)
  · simp [daysSchema, daySchema, typeOf, minItems, maxItems, uniqueItems, items, minimum, maximum]
  · simp [timezoneSchema, typeOf, minLength, maxLength]
  · simp [snoozeMinutesSchema, typeOf, minimum, maximum]
  · simp [volumeSchema, typeOf, minimum, maximum]
  · simp [soundSchema, typeOf, minLength, maxLength]
  · simp [sourceSchema, typeOf, enum]
  · simp [sourceEventIdSchema, typeOf, maxLength]

set_option maxRecDepth 20000 in
/-- A label of 25 characters and 50 bytes conforms to the schema and is rejected. -/
theorem wideLabel_rejected : ∃ text document value, Spells text document ∧
    parseJson text = .ok value ∧ ScheduleBody List.length document ∧
      (validateProtocolMessageBody value (utf8 "schedule.preview")).accepted = false := by
  have parsed : parseJson (bodyText wideLabel) = .ok (represent (bodyLabelled wideLabel)) := rfl
  have within : AllWithin (bodyLabelled wideLabel) := by
    decide +kernel
  refine ⟨_, _, _, spells_of_parsed parsed within, parsed, ?_, by decide +kernel⟩
  refine ⟨[alarmLabelled wideLabel], rfl, by decide, List.nodup_singleton _, ?_⟩
  rw [List.forall_mem_singleton]
  exact conforms_labelled

end DawnDock
