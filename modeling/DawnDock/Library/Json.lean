import DawnDock.Library.Utf8

/-!
JSON texts (RFC 8259) over bytes, with integer numbers.

`Json σ ν` is a document with strings `σ` and numbers `ν`. The grammar reads documents
of characters and integers from the front of a byte string: `Value depth document input
rest` says that `input` starts with a text of `document`, which nests at most `depth`
values deep, and goes on with `rest`. `Text` is a whole input.
-/

/-- A JSON document. Members stand in the order of the text. -/
inductive Json (σ ν : Type) where
  | null
  | boolean (value : Bool)
  | number (value : ν)
  | string (text : σ)
  | array (elements : List (Json σ ν))
  | object (members : List (σ × Json σ ν))

namespace Json

variable {σ ν : Type}

/-! ### Documents -/

section Documents

mutual

/-- The document and everything nested in it. -/
def values : Json σ ν → List (Json σ ν)
  | .array elements => .array elements :: elementValues elements
  | .object members => .object members :: memberValues members
  | .null => [.null]
  | .boolean value => [.boolean value]
  | .number value => [.number value]
  | .string text => [.string text]

def elementValues : List (Json σ ν) → List (Json σ ν)
  | [] => []
  | element :: rest => element.values ++ elementValues rest

def memberValues : List (σ × Json σ ν) → List (Json σ ν)
  | [] => []
  | (_, value) :: rest => value.values ++ memberValues rest

end

variable {σ' ν' : Type} (f : σ → σ') (g : ν → ν')

mutual

/-- The same document with other strings and numbers. -/
def map : Json σ ν → Json σ' ν'
  | .array elements => .array (mapElements elements)
  | .object members => .object (mapMembers members)
  | .null => .null
  | .boolean value => .boolean value
  | .number value => .number (g value)
  | .string text => .string (f text)

def mapElements : List (Json σ ν) → List (Json σ' ν')
  | [] => []
  | element :: rest => element.map :: mapElements rest

def mapMembers : List (σ × Json σ ν) → List (σ' × Json σ' ν')
  | [] => []
  | (key, value) :: rest => (f key, value.map) :: mapMembers rest

end

variable {f g}

@[simp] theorem mapElements_eq (elements : List (Json σ ν)) :
    mapElements f g elements = elements.map (map f g) := by
  induction elements with
  | nil => rfl
  | cons element rest ih => rw [mapElements, ih, List.map_cons]

@[simp] theorem mapMembers_eq (members : List (σ × Json σ ν)) :
    mapMembers f g members = members.map fun member => (f member.1, member.2.map f g) := by
  induction members with
  | nil => rfl
  | cons member rest ih => rw [mapMembers, ih, List.map_cons]

@[simp] theorem elementValues_eq (elements : List (Json σ ν)) :
    elementValues elements = elements.flatMap values := by
  induction elements with
  | nil => rfl
  | cons element rest ih => rw [elementValues, ih, List.flatMap_cons]

@[simp] theorem memberValues_eq (members : List (σ × Json σ ν)) :
    memberValues members = members.flatMap fun member => member.2.values := by
  induction members with
  | nil => rfl
  | cons member rest ih => rw [memberValues, ih, List.flatMap_cons]

/-- How many values a document has, itself counted. -/
def count (document : Json σ ν) : Nat := document.values.length

end Documents

/-! ### Grammar -/

/-- A document as the text denotes it. -/
abbrev Document := Json (List Char) Int

abbrev Bytes := List UInt8

/-- Bytes that separate tokens: space, tab, line feed, carriage return. -/
def IsSpace (byte : UInt8) : Prop := byte = 0x20 ∨ byte = 0x09 ∨ byte = 0x0a ∨ byte = 0x0d

/-- `ws` -/
inductive Ws : Bytes → Bytes → Prop where
  | done {rest : Bytes} : Ws rest rest
  | skip {byte : UInt8} {input rest : Bytes} : IsSpace byte → Ws input rest →
      Ws (byte :: input) rest

/-- `DIGIT`, with its value. -/
def Digit (byte : UInt8) (value : Nat) : Prop := byte.toNat = 0x30 + value ∧ value < 10

/-- Digits read behind a number. -/
inductive Digits : Nat → Bytes → Nat → Bytes → Prop where
  | done {value : Nat} {rest : Bytes} : Digits value rest value rest
  | more {byte : UInt8} {digit before value : Nat} {input rest : Bytes} : Digit byte digit →
      Digits (10 * before + digit) input value rest → Digits before (byte :: input) value rest

/-- `int`: zero, or digits that start with another one. -/
inductive Natural : Bytes → Nat → Bytes → Prop where
  | zero {rest : Bytes} : Natural (0x30 :: rest) 0 rest
  | positive {byte : UInt8} {digit value : Nat} {input rest : Bytes} : Digit byte digit →
      digit ≠ 0 → Digits digit input value rest → Natural (byte :: input) value rest

/-- `number` without fraction and exponent. -/
inductive Number : Bytes → Int → Bytes → Prop where
  | natural {value : Nat} {input rest : Bytes} : Natural input value rest →
      Number input value rest
  | minus {value : Nat} {input rest : Bytes} : Natural input value rest →
      Number (0x2d :: input) (-value) rest

/-- `HEXDIG`, in either case. -/
def HexDigit (byte : UInt8) (value : Nat) : Prop :=
  (byte.toNat = 0x30 + value ∧ value < 10) ∨
    (byte.toNat = 0x61 + (value - 10) ∧ 10 ≤ value ∧ value < 16) ∨
    (byte.toNat = 0x41 + (value - 10) ∧ 10 ≤ value ∧ value < 16)

/-- `4HEXDIG` -/
inductive Hex4 : Bytes → Nat → Bytes → Prop where
  | mk {a b c d : UInt8} {i j k l : Nat} {rest : Bytes} : HexDigit a i → HexDigit b j →
      HexDigit c k → HexDigit d l → Hex4 (a :: b :: c :: d :: rest) (((i * 16 + j) * 16 + k) * 16 + l) rest

/-- The two-character escapes. -/
inductive SimpleEscape : UInt8 → Char → Prop where
  | quote : SimpleEscape 0x22 '"'
  | backslash : SimpleEscape 0x5c '\\'
  | slash : SimpleEscape 0x2f '/'
  | backspace : SimpleEscape 0x62 '\x08'
  | formFeed : SimpleEscape 0x66 '\x0c'
  | lineFeed : SimpleEscape 0x6e '\n'
  | carriageReturn : SimpleEscape 0x72 '\r'
  | tab : SimpleEscape 0x74 '\t'

/-- What `\u` may name: a character, or a surrogate pair of one. -/
inductive UnicodeEscape : Bytes → Char → Bytes → Prop where
  | scalar {input rest : Bytes} {c : Char} : Hex4 input c.toNat rest → UnicodeEscape input c rest
  | pair {input middle rest : Bytes} {high low : Nat} {c : Char} :
      Hex4 input high (0x5c :: 0x75 :: middle) → Hex4 middle low rest →
      0xd800 ≤ high → high ≤ 0xdbff → 0xdc00 ≤ low → low ≤ 0xdfff →
      c.toNat = 0x10000 + (high - 0xd800) * 0x400 + (low - 0xdc00) → UnicodeEscape input c rest

/-- `unescaped` -/
def Unescaped (c : Char) : Prop := 0x20 ≤ c.toNat ∧ c ≠ '"' ∧ c ≠ '\\'

/-- `char` -/
inductive Character : Bytes → Char → Bytes → Prop where
  | unescaped {c : Char} {rest : Bytes} : Unescaped c →
      Character (String.utf8EncodeChar c ++ rest) c rest
  | simple {byte : UInt8} {c : Char} {rest : Bytes} : SimpleEscape byte c →
      Character (0x5c :: byte :: rest) c rest
  | unicode {input rest : Bytes} {c : Char} : UnicodeEscape input c rest →
      Character (0x5c :: 0x75 :: input) c rest

/-- The characters of a string and its closing quotation mark. -/
inductive Characters : Bytes → List Char → Bytes → Prop where
  | close {rest : Bytes} : Characters (0x22 :: rest) [] rest
  | more {input middle rest : Bytes} {c : Char} {text : List Char} : Character input c middle →
      Characters middle text rest → Characters input (c :: text) rest

/-- `string` -/
inductive Str : Bytes → List Char → Bytes → Prop where
  | mk {input rest : Bytes} {text : List Char} : Characters input text rest →
      Str (0x22 :: input) text rest

section Values

-- the texts of the values one level down
variable (child : Document → Bytes → Bytes → Prop)

/-- `value *( value-separator value )` -/
inductive Elements : List Document → Bytes → Bytes → Prop where
  | last {element : Document} {input a b rest : Bytes} : Ws input a → child element a b →
      Ws b rest → Elements [element] input rest
  | more {element : Document} {elements : List Document} {input a b c rest : Bytes} :
      Ws input a → child element a b → Ws b (0x2c :: c) → Elements elements c rest →
      Elements (element :: elements) input rest

/-- `member *( value-separator member )` -/
inductive Members : List (List Char × Document) → Bytes → Bytes → Prop where
  | last {key : List Char} {value : Document} {input a b c d e rest : Bytes} : Ws input a →
      Str a key b → Ws b (0x3a :: c) → Ws c d → child value d e → Ws e rest →
      Members [(key, value)] input rest
  | more {key : List Char} {value : Document} {members : List (List Char × Document)}
      {input a b c d e f rest : Bytes} : Ws input a → Str a key b → Ws b (0x3a :: c) → Ws c d →
      child value d e → Ws e (0x2c :: f) → Members members f rest →
      Members ((key, value) :: members) input rest

/-- `value`, with `child` for the values nested in it. -/
inductive ValueOf : Document → Bytes → Bytes → Prop where
  | null {rest : Bytes} : ValueOf .null (0x6e :: 0x75 :: 0x6c :: 0x6c :: rest) rest
  | true {rest : Bytes} :
      ValueOf (.boolean Bool.true) (0x74 :: 0x72 :: 0x75 :: 0x65 :: rest) rest
  | false {rest : Bytes} :
      ValueOf (.boolean Bool.false) (0x66 :: 0x61 :: 0x6c :: 0x73 :: 0x65 :: rest) rest
  | number {value : Int} {input rest : Bytes} : Number input value rest →
      ValueOf (.number value) input rest
  | string {text : List Char} {input rest : Bytes} : Str input text rest →
      ValueOf (.string text) input rest
  | emptyArray {input rest : Bytes} : Ws input (0x5d :: rest) →
      ValueOf (.array []) (0x5b :: input) rest
  | array {elements : List Document} {input rest : Bytes} :
      Elements child elements input (0x5d :: rest) →
      ValueOf (.array elements) (0x5b :: input) rest
  | emptyObject {input rest : Bytes} : Ws input (0x7d :: rest) →
      ValueOf (.object []) (0x7b :: input) rest
  | object {members : List (List Char × Document)} {input rest : Bytes} :
      Members child members input (0x7d :: rest) →
      ValueOf (.object members) (0x7b :: input) rest

end Values

/-- A text of the document that nests at most `depth` values deep, and what follows it. -/
def Value : Nat → Document → Bytes → Bytes → Prop
  | 0 => fun _ _ _ => False
  | depth + 1 => ValueOf (Value depth)

/-- `JSON-text`, nesting at most `depth` values deep. -/
def Text (depth : Nat) (document : Document) (input : Bytes) : Prop :=
  ∃ front back, Ws input front ∧ Value depth document front back ∧ Ws back []

end Json
