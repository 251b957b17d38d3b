import DawnDock.Protocol.GateTotality

/-!
Dart's `JsonEncoder` on decoded values, compact (`jsonEncode`) and indented
(`JsonEncoder.withIndent`). `none` is the error for a double that is not finite.
-/

namespace DawnDock.App

/-! ### Strings -/

def isLead (unit : UInt16) : Bool := unit &&& 0xfc00 == 0xd800

def isTrail (unit : UInt16) : Bool := unit &&& 0xfc00 == 0xdc00

/-- A surrogate that its neighbours do not complete. -/
def isLone (previous : Option UInt16) (unit : UInt16) (next : Option UInt16) : Bool :=
  isLead unit && !next.any isTrail || isTrail unit && !previous.any isLead

/-- A hexadecimal digit. -/
def hexUnit (value : UInt16) : UInt16 := if value < 10 then 0x30 + value else 0x57 + value

/-- `\u` and four hexadecimal digits. -/
def unicodeEscape (unit : UInt16) : DartString :=
  [0x5c, 0x75, hexUnit (unit >>> 12), hexUnit (unit >>> 8 &&& 0xf), hexUnit (unit >>> 4 &&& 0xf),
    hexUnit (unit &&& 0xf)]

def escapeUnit (previous : Option UInt16) (unit : UInt16) (next : Option UInt16) : DartString :=
  if isLone previous unit next then unicodeEscape unit
  else if unit < 0x20 then
    if unit = 0x08 then [0x5c, 0x62]
    else if unit = 0x09 then [0x5c, 0x74]
    else if unit = 0x0a then [0x5c, 0x6e]
    else if unit = 0x0c then [0x5c, 0x66]
    else if unit = 0x0d then [0x5c, 0x72]
    else unicodeEscape unit
  else if unit = 0x22 || unit = 0x5c then [0x5c, unit]
  else [unit]

/-- `writeStringContent` -/
def escapeUnits : Option UInt16 → DartString → DartString
  | _, [] => []
  | previous, unit :: rest => escapeUnit previous unit rest.head? ++ escapeUnits (some unit) rest

def encodeString (text : DartString) : DartString := [0x22] ++ escapeUnits none text ++ [0x22]

/-! ### Values -/

section Values

variable {δ : Type} [Double δ]

def encodeNumber : Number δ → Option DartString
  | .int value => some (intText value.toInt)
  | .double value =>
    if Double.isNaN value || Double.isInfinite value then none else some (Double.toText value)

/-- What stands before an element or a closing bracket: the compact form has no lines. -/
def newline (indent : Option DartString) (level : Nat) : DartString :=
  match indent with
  | none => []
  | some unit => 0x0a :: (List.replicate level unit).flatten

/-- An array or object of elements that are written; an empty one stays on its line. -/
def bracketed (opening closing : UInt16) (indent : Option DartString) (level : Nat)
    (elements : List DartString) : DartString :=
  if elements.isEmpty then [opening, closing]
  else [opening] ++ separated (elements.map fun text => newline indent (level + 1) ++ text) ++
    newline indent level ++ [closing]

/-- Between key and value. -/
def colon (indent : Option DartString) : DartString :=
  if indent.isSome then [0x3a, 0x20] else [0x3a]

mutual

def encodeValue (indent : Option DartString) (level : Nat) : Value δ → Option DartString
  | .null => some (utf16 "null")
  | .boolean value => some (if value then utf16 "true" else utf16 "false")
  | .number value => encodeNumber value
  | .string text => some (encodeString text)
  | .array elements => do
    let texts ← encodeElements indent (level + 1) elements
    return bracketed 0x5b 0x5d indent level texts
  | .object entries => do
    let texts ← encodeEntries indent (level + 1) entries
    return bracketed 0x7b 0x7d indent level texts

def encodeElements (indent : Option DartString) (level : Nat) :
    List (Value δ) → Option (List DartString)
  | [] => some []
  | element :: rest => do
    let text ← encodeValue indent level element
    let texts ← encodeElements indent level rest
    return text :: texts

def encodeEntries (indent : Option DartString) (level : Nat) :
    List (DartString × Value δ) → Option (List DartString)
  | [] => some []
  | (key, value) :: rest => do
    let text ← encodeValue indent level value
    let texts ← encodeEntries indent level rest
    return (encodeString key ++ colon indent ++ text) :: texts

end

def jsonEncode (value : Value δ) : Option DartString := encodeValue none 0 value

variable {indent : Option DartString}

theorem encodeNumber_isSome (value : δ) :
    (encodeNumber (.double value)).isSome ↔
      Double.isNaN value = false ∧ Double.isInfinite value = false := by
  rw [encodeNumber, ← Bool.or_eq_false_iff]
  cases Double.isNaN value || Double.isInfinite value with
  | true => exact ⟨nofun, nofun⟩
  | false => exact iff_of_true rfl rfl

mutual

/-- A value can be encoded if its doubles are finite. -/
theorem encodeValue_isSome (level : Nat) (value : Value δ) (finite : AllFinite value) :
    (encodeValue indent level value).isSome := by
  cases value with
  | null => rfl
  | boolean value => rfl
  | string text => rfl
  | number number =>
      cases number with
      | int value => rfl
      | double value =>
          rw [AllFinite, Json.values, List.forall_mem_singleton] at finite
          exact (encodeNumber_isSome value).mpr finite
  | array elements =>
      have encoded := encodeElements_isSome (level + 1) elements (allFinite_array.mp finite)
      obtain ⟨texts, encoded⟩ := Option.isSome_iff_exists.mp encoded
      rw [encodeValue, encoded]
      rfl
  | object entries =>
      have encoded := encodeEntries_isSome (level + 1) entries (allFinite_object.mp finite)
      obtain ⟨texts, encoded⟩ := Option.isSome_iff_exists.mp encoded
      rw [encodeValue, encoded]
      rfl

theorem encodeElements_isSome (level : Nat) (elements : List (Value δ))
    (finite : ∀ element ∈ elements, AllFinite element) :
    (encodeElements indent level elements).isSome := by
  cases elements with
  | nil => rfl
  | cons element rest =>
      rw [List.forall_mem_cons] at finite
      obtain ⟨text, encoded⟩ := Option.isSome_iff_exists.mp
        (encodeValue_isSome level element finite.1)
      obtain ⟨texts, more⟩ := Option.isSome_iff_exists.mp
        (encodeElements_isSome level rest finite.2)
      rw [encodeElements, encoded, more]
      rfl

theorem encodeEntries_isSome (level : Nat) (entries : List (DartString × Value δ))
    (finite : ∀ entry ∈ entries, AllFinite entry.2) :
    (encodeEntries indent level entries).isSome := by
  cases entries with
  | nil => rfl
  | cons entry rest =>
      obtain ⟨key, value⟩ := entry
      rw [List.forall_mem_cons] at finite
      obtain ⟨text, encoded⟩ := Option.isSome_iff_exists.mp
        (encodeValue_isSome level value finite.1)
      obtain ⟨texts, more⟩ := Option.isSome_iff_exists.mp
        (encodeEntries_isSome level rest finite.2)
      rw [encodeEntries, encoded, more]
      rfl

end

end Values

end DawnDock.App
