import DawnDock.Protocol.Contract

/-!
The text layer of the calendar importer (`ics_import.dart`): folded lines, properties,
labels and the hash behind the ids.

`toUpperCase` is the platform's case mapping. It is a parameter: its tables are not in
the repository, and no result here depends on them.
-/

namespace DawnDock.App.Ics

open DawnDock.App (utf8Length)
open Utf16 (runes ofRune)

/-! ### Lines -/

/-- `text.split(RegExp(r'\r\n|\n|\r'))`, the line so far in `line`. -/
def splitLines (line : DartString) : DartString → List DartString
  | [] => [line]
  | 0x0d :: 0x0a :: rest => line :: splitLines [] rest
  | unit :: rest =>
    if unit == 0x0a || unit == 0x0d then line :: splitLines [] rest
    else splitLines (line ++ [unit]) rest

/-- One raw line behind the lines so far. -/
def unfoldLine (out : List DartString) (line : DartString) : List DartString :=
  match line with
  | [] => out
  | first :: rest =>
    if !out.isEmpty && (first == 0x20 || first == 0x09) then
      out.dropLast ++ [out.getLastD [] ++ rest]
    else out ++ [line]

/-- `_unfold` -/
def unfold (text : DartString) : List DartString := (splitLines [] text).foldl unfoldLine []

/-! ### White space -/

/-- White space of `trim`: the Unicode property and the byte order mark. -/
def isWhiteSpace (unit : UInt16) : Bool :=
  (0x09 ≤ unit && unit ≤ 0x0d) || unit == 0x20 || unit == 0x85 || unit == 0xa0 ||
    unit == 0x1680 || (0x2000 ≤ unit && unit ≤ 0x200a) || unit == 0x2028 || unit == 0x2029 ||
    unit == 0x202f || unit == 0x205f || unit == 0x3000 || unit == 0xfeff

/-- The class `\s`, which has no U+0085. -/
def isSpaceClass (unit : UInt16) : Bool := isWhiteSpace unit && unit != 0x85

def trim (text : DartString) : DartString :=
  ((text.dropWhile isWhiteSpace).reverse.dropWhile isWhiteSpace).reverse

/-! ### Numbers -/

/-- The digits of a radix, or `none`. -/
def hexDigit (unit : UInt16) : Option Nat :=
  if digit unit then some (unit.toNat - 0x30)
  else if 0x61 ≤ unit && unit ≤ 0x66 then some (unit.toNat - 0x57)
  else if 0x41 ≤ unit && unit ≤ 0x46 then some (unit.toNat - 0x37)
  else none

def hexValue (digits : DartString) : Option Nat :=
  digits.foldl (fun value unit => do return (← value) * 16 + (← hexDigit unit)) (some 0)

/-- The magnitude behind a sign. Hexadecimal digits without a minus may fill all 64 bits. -/
def signedValue (negative : Bool) (digits : DartString) : Option Int :=
  match digits with
  | 0x30 :: 0x78 :: hex | 0x30 :: 0x58 :: hex =>
    if hex.isEmpty then none
    else
      match hexValue hex with
      | none => none
      | some value =>
        if negative then if value ≤ 2 ^ 63 then some (-(value : Int)) else none
        else if value < 2 ^ 64 then some (Int.bmod value (2 ^ 64)) else none
  | _ =>
    if digits.isEmpty || !digits.all digit then none
    else
      let value : Int := if negative then -(parseDigits digits : Int) else parseDigits digits
      if -2 ^ 63 ≤ value ∧ value < 2 ^ 63 then some value else none

/-- `int.tryParse` -/
def intTryParse (source : DartString) : Option Int :=
  match trim source with
  | 0x2b :: digits => signedValue false digits
  | 0x2d :: digits => signedValue true digits
  | digits => signedValue false digits

/-! ### Properties -/

/-- A property line. The parameters stand newest first, so that `find?` sees what the map
holds. -/
structure Property where
  name : DartString
  params : List (DartString × DartString)
  rawValue : DartString
deriving DecidableEq, Repr

def Property.param (prop : Property) (key : DartString) : Option DartString :=
  (prop.params.find? fun param => param.1 == key).map Prod.snd

/-- `text.substring(0, text.indexOf(mark))` and what stands behind the mark. -/
def cutAt (mark : UInt16) : DartString → Option (DartString × DartString)
  | [] => none
  | unit :: rest =>
    if unit == mark then some ([], rest)
    else (cutAt mark rest).map fun (before, behind) => (unit :: before, behind)

section Case

variable (toUpperCase : DartString → DartString)

def addParam (params : List (DartString × DartString)) (param : DartString) :
    List (DartString × DartString) :=
  match cutAt 0x3d param with
  | some (key, value) =>
    if key.isEmpty then params else (toUpperCase key, value.filter (· != 0x22)) :: params
  | none => params

/-- `_propertyOf` -/
def propertyOf (line : DartString) : Option Property :=
  match cutAt 0x3a line with
  | none => none
  | some (nameSection, rawValue) =>
    let parts := nameSection.splitOn 0x3b
    let name := toUpperCase (parts.headD [])
    if name.isEmpty then none
    else some { name, params := parts.tail.foldl (addParam toUpperCase) [], rawValue }

end Case

/-- The loop of `_unescapeText`. Every escaped unit stands for itself but `n` and `N`. -/
def unescapeUnits : DartString → DartString
  | [] => []
  | [0x5c] => []
  | 0x5c :: next :: rest =>
    (if next == 0x6e || next == 0x4e then 0x0a else next) :: unescapeUnits rest
  | unit :: rest => unit :: unescapeUnits rest

/-- `_unescapeText` -/
def unescapeText (value : DartString) : DartString :=
  if !value.contains 0x5c then value else unescapeUnits value

def Property.textValue (prop : Property) : DartString := unescapeText prop.rawValue

/-! ### Labels -/

/-- `[\x00-\x08\x0B\x0C\x0E-\x1F\x7F]` -/
def isStripped (unit : UInt16) : Bool :=
  unit ≤ 0x08 || unit == 0x0b || unit == 0x0c || (0x0e ≤ unit && unit ≤ 0x1f) || unit == 0x7f

/-- `replaceAll(RegExp(r'\s+'), ' ')`; `inRun` behind a unit of the class. -/
def collapseSpaces (inRun : Bool) : DartString → DartString
  | [] => []
  | unit :: rest =>
    if isSpaceClass unit then
      if inRun then collapseSpaces true rest else 0x20 :: collapseSpaces true rest
    else unit :: collapseSpaces false rest

/-- `_sanitizeLabel` -/
def sanitizeLabel (value : DartString) : DartString :=
  trim (collapseSpaces false (value.filter fun unit => !isStripped unit))

/-- `_runeUtf8Bytes` -/
def runeUtf8Bytes (rune : Nat) : Nat :=
  if rune < 0x80 then 1 else if rune < 0x800 then 2 else if rune < 0x10000 then 3 else 4

/-- The loop of `_truncateUtf8`, with the bytes so far. -/
def truncateRunes (maxBytes bytes : Nat) : List Nat → DartString
  | [] => []
  | rune :: rest =>
    if bytes + runeUtf8Bytes rune > maxBytes then []
    else ofRune rune ++ truncateRunes maxBytes (bytes + runeUtf8Bytes rune) rest

/-- `_truncateUtf8` -/
def truncateUtf8 (value : DartString) (maxBytes : Nat) : DartString :=
  if utf8Length value ≤ maxBytes then value else truncateRunes maxBytes 0 (runes value)

/-! ### Ids -/

/-- `utf8.encode`: an unpaired surrogate becomes U+FFFD. -/
def utf8Encode (value : DartString) : List UInt8 :=
  (runes value).flatMap fun rune =>
    (Utf8.units (if 0xd800 ≤ rune ∧ rune ≤ 0xdfff then 0xfffd else rune)).map UInt8.ofNat

/-- `_mul64`; an `int` keeps the low 64 bits of what it computes. -/
def mul64 (a b : UInt64) : UInt64 :=
  let mask : UInt64 := 0xffffffff
  let aLo := a &&& mask
  let aHi := a >>> 32 &&& mask
  let bLo := b &&& mask
  let bHi := b >>> 32 &&& mask
  aLo * bLo + (aHi * bLo + aLo * bHi) <<< 32

/-- `_fnv1a64Hex` -/
def fnv1a64Hex (value : DartString) : DartString :=
  let hash := (utf8Encode value).foldl
    (fun hash unit => mul64 (hash ^^^ unit.toUInt64) 0x100000001b3) 0xcbf29ce484222325
  let hex := asciiUnits (Nat.toDigits 16 hash.toNat)
  List.replicate (16 - hex.length) 0x30 ++ hex

/-- The id of an event, by how many events of the hash came before it. -/
def idFor (hex : DartString) (suffix : Nat) : DartString :=
  utf16 "ics-" ++ hex ++ if suffix = 1 then [] else 0x2d :: intText suffix

/-- The loop that looks for an unused id, from `suffix` on. It ends within one round more
than there are used ids (`nextSuffix_unused`). -/
def nextSuffix (hex : DartString) (usedIds : List DartString) (suffix : Nat) : Nat → Nat
  | 0 => suffix
  | rounds + 1 =>
    if usedIds.contains (idFor hex suffix) then nextSuffix hex usedIds (suffix + 1) rounds
    else suffix

end DawnDock.App.Ics
