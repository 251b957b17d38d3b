import DawnDock.Library.ByteCodec
import DawnDock.Library.Json
import DawnDock.Protocol.Envelope

/-!
The JSON parser (`json_parser.cpp`).

The parser's position is what is left of the text. Its recursion over nested values is
bounded by the depth it still allows; each of its loops is given as many turns as there
are bytes left, and an error with the code `ok`, which the source never reports, would
be a loop that used them up.
-/

namespace DawnDock

open ByteCodec

def kMaximumInputBytes : Nat := kProtocolEnvelopeMaximumBytes
def kJsonMaximumDepth : Nat := 16
def kJsonMaximumNodes : Nat := 8192
def kJsonMaximumStringBytes : Nat := 2048

/-- A parsed value: decoded strings as bytes, numbers in 64 bits. -/
abbrev JsonValue := Json Text Int64

inductive JsonParseCode where
  | ok | inputTooLarge | invalidJson | numberRange | stringLimit | duplicateKey | depthLimit
  | nodeLimit | trailingContent
deriving DecidableEq, Repr

structure JsonParseError where
  code : JsonParseCode
  path : Text
deriving DecidableEq, Repr

abbrev Parse (α : Type) := Except JsonParseError α

def fail {α : Type} (code : JsonParseCode) (path : Text) : Parse α := .error { code, path }

def invalid {α : Type} (path : Text) : Parse α := fail .invalidJson path

/-! ### Tokens -/

def isSpace (c : UInt8) : Bool := c == 0x20 || c == 0x09 || c == 0x0a || c == 0x0d

def skipWs (text : Bytes) : Bytes := text.dropWhile isSpace

def isDigit (c : UInt8) : Bool := 0x30 ≤ c && c ≤ 0x39

def hexDigit (c : UInt8) : Option Nat :=
  if 0x30 ≤ c && c ≤ 0x39 then some (c.toNat - 0x30)
  else if 0x61 ≤ c && c ≤ 0x66 then some (c.toNat - 0x61 + 10)
  else if 0x41 ≤ c && c ≤ 0x46 then some (c.toNat - 0x41 + 10)
  else none

/-- The loop of `hex4` over the four digits. -/
def hexDigits (value : Nat) : Nat → Bytes → Option (Nat × Bytes)
  | 0, rest => some (value, rest)
  | count + 1, c :: rest => do
    let digit ← hexDigit c
    hexDigits (value <<< 4 ||| digit) count rest
  | _ + 1, [] => none

def hex4 (text : Bytes) : Option (Nat × Bytes) := hexDigits 0 4 text

def appendCodePoint (out : Text) (cp : Nat) : Text :=
  if cp < 0x80 then out ++ [UInt8.ofNat cp]
  else if cp < 0x800 then
    out ++ [UInt8.ofNat (0xc0 ||| cp >>> 6), UInt8.ofNat (0x80 ||| (cp &&& 0x3f))]
  else if cp < 0x10000 then
    out ++ [UInt8.ofNat (0xe0 ||| cp >>> 12), UInt8.ofNat (0x80 ||| (cp >>> 6 &&& 0x3f)),
      UInt8.ofNat (0x80 ||| (cp &&& 0x3f))]
  else
    out ++ [UInt8.ofNat (0xf0 ||| cp >>> 18), UInt8.ofNat (0x80 ||| (cp >>> 12 &&& 0x3f)),
      UInt8.ofNat (0x80 ||| (cp >>> 6 &&& 0x3f)), UInt8.ofNat (0x80 ||| (cp &&& 0x3f))]

/-- The `u` case of `parse_escape`: the code point of one escape or of a surrogate pair. -/
def unicodeEscape (text : Bytes) : Option (Nat × Bytes) :=
  match hex4 text with
  | none => none
  | some (cp, rest) =>
    if 0xd800 ≤ cp && cp ≤ 0xdbff then
      match rest with
      | 0x5c :: 0x75 :: rest =>
        match hex4 rest with
        | none => none
        | some (low, rest) =>
          if low < 0xdc00 || low > 0xdfff then none
          else some (0x10000 + (cp - 0xd800) <<< 10 + (low - 0xdc00), rest)
      | _ => none
    else if 0xdc00 ≤ cp && cp ≤ 0xdfff then none
    else some (cp, rest)

/-- The single-character cases of `parse_escape`. -/
def simpleEscape (e : UInt8) : Option UInt8 :=
  if e == 0x22 then some 0x22
  else if e == 0x5c then some 0x5c
  else if e == 0x2f then some 0x2f
  else if e == 0x62 then some 0x08
  else if e == 0x66 then some 0x0c
  else if e == 0x6e then some 0x0a
  else if e == 0x72 then some 0x0d
  else if e == 0x74 then some 0x09
  else none

/-- What an escape adds to the string, from behind its backslash. -/
def escaped (out : Text) : Bytes → Option (Text × Bytes)
  | [] => none
  | e :: rest =>
    if e == 0x75 then (unicodeEscape rest).map fun (cp, rest) => (appendCodePoint out cp, rest)
    else (simpleEscape e).map fun c => (out ++ [c], rest)

def parseEscape (path : Text) (out : Text) (text : Bytes) : Parse (Text × Bytes) :=
  match escaped out text with
  | none => invalid path
  | some (out, rest) =>
    if out.length > kJsonMaximumStringBytes then fail .stringLimit path else .ok (out, rest)

/-! ### UTF-8 -/

/-- The lead byte of a longer sequence: how many bytes follow, and its bits. -/
def utf8Lead (b0 : UInt8) : Option (Nat × Nat) :=
  if 0xc2 ≤ b0 && b0 ≤ 0xdf then some (1, b0.toNat &&& 0x1f)
  else if 0xe0 ≤ b0 && b0 ≤ 0xef then some (2, b0.toNat &&& 0x0f)
  else if 0xf0 ≤ b0 && b0 ≤ 0xf4 then some (3, b0.toNat &&& 0x07)
  else none

/-- The loop over the continuation bytes; a missing one fails as the length check does. -/
def utf8Continuation (cp : Nat) : Nat → Bytes → Option (Nat × Bytes)
  | 0, rest => some (cp, rest)
  | extra + 1, b :: rest =>
    if b < 0x80 || b > 0xbf then none
    else utf8Continuation (cp <<< 6 ||| (b.toNat &&& 0x3f)) extra rest
  | _ + 1, [] => none

/-- One character of `is_valid_utf8`; `none` is a sequence it refuses. -/
def utf8Next (b0 : UInt8) (rest : Bytes) : Option Bytes :=
  if b0 < 0x80 then some rest
  else
    match utf8Lead b0 with
    | none => none
    | some (extra, bits) =>
      match utf8Continuation bits extra rest with
      | none => none
      | some (cp, rest) =>
        if extra == 2 && cp < 0x800 then none
        else if extra == 3 && cp < 0x10000 then none
        else if cp > 0x10ffff then none
        else if 0xd800 ≤ cp && cp ≤ 0xdfff then none
        else some rest

def utf8Loop : Nat → Bytes → Bool
  | _, [] => true
  | 0, _ :: _ => false
  | turns + 1, b0 :: rest =>
    match utf8Next b0 rest with
    | none => false
    | some rest => utf8Loop turns rest

def isValidUtf8 (text : Bytes) : Bool := utf8Loop text.length text

/-! ### Strings and numbers -/

/-- The loop of `parse_raw_string`, behind the opening quotation mark. -/
def rawStringLoop (path : Text) : Nat → Text → Bytes → Parse (Text × Bytes)
  | 0, _, _ => fail .ok path
  | turns + 1, out, text =>
    match text with
    | [] => invalid path
    | c :: rest =>
      if c == 0x22 then if isValidUtf8 out then .ok (out, rest) else invalid path
      else if c == 0x5c then do
        let (out, rest) ← parseEscape path out rest
        rawStringLoop path turns out rest
      else if c < 0x20 then invalid path
      else if (out ++ [c]).length > kJsonMaximumStringBytes then fail .stringLimit path
      else rawStringLoop path turns (out ++ [c]) rest

/-- The text starts behind the opening quotation mark. -/
def parseRawString (path : Text) (text : Bytes) : Parse (Text × Bytes) :=
  rawStringLoop path (text.length + 1) [] text

/-- `std::from_chars` on an optional minus sign and digits. -/
def fromChars (negative : Bool) (digits : Bytes) : Option Int64 :=
  let magnitude : Nat := digits.foldl (fun value c => 10 * value + (c.toNat - 0x30)) 0
  let value : Int := if negative then -magnitude else magnitude
  if -2 ^ 63 ≤ value ∧ value < 2 ^ 63 then some (Int64.ofInt value) else none

/-- The checks behind the digits. -/
def finishNumber (path : Text) (negative : Bool) (digits rest : Bytes) : Parse (Int64 × Bytes) :=
  if rest.head?.any fun c => c == 0x2e || c == 0x65 || c == 0x45 then fail .numberRange path
  else
    match fromChars negative digits with
    | none => fail .numberRange path
    | some parsed => .ok (parsed, rest)

/-- The digits of `parse_number`, behind the sign. -/
def parseDigits (path : Text) (negative : Bool) : Bytes → Parse (Int64 × Bytes)
  | [] => invalid path
  | c :: rest =>
    if !isDigit c then invalid path
    else if c == 0x30 then
      if rest.head?.any isDigit then invalid path else finishNumber path negative [c] rest
    else
      finishNumber path negative (c :: rest.takeWhile isDigit) (rest.dropWhile isDigit)

def parseNumber (path : Text) (text : Bytes) : Parse (Int64 × Bytes) :=
  if text.head? = some 0x2d then parseDigits path true text.tail else parseDigits path false text

/-! ### Values -/

/-- The text from the parser's position on, and the values started so far. -/
structure ParserState where
  rest : Bytes
  nodes : Nat

def childPath (parent key : Text) : Text := parent ++ [0x2f] ++ key

/-- `std::to_string`. -/
def decimalText (n : Nat) : Text := (Nat.toDigits 10 n).map fun c => UInt8.ofNat c.toNat

section Loops

-- `parse_value` one level down
variable (child : Text → ParserState → Parse (JsonValue × ParserState))

def arrayLoop (path : Text) : Nat → List JsonValue → ParserState → Parse (JsonValue × ParserState)
  | 0, _, _ => fail .ok path
  | turns + 1, elements, state => do
    let index := elements.length
    let (element, state) ←
      child (childPath path (decimalText index)) { state with rest := skipWs state.rest }
    let elements := elements ++ [element]
    match skipWs state.rest with
    | 0x2c :: rest => arrayLoop path turns elements { state with rest }
    | 0x5d :: rest => .ok (.array elements, { state with rest })
    | _ => invalid path

/-- The key of a member and the `:` behind it, up to its value. -/
def memberKey (path : Text) (text : Bytes) : Parse (Text × Bytes) :=
  match skipWs text with
  | 0x22 :: rest => do
    let (key, rest) ← parseRawString path rest
    match skipWs rest with
    | 0x3a :: rest => .ok (key, skipWs rest)
    | _ => invalid path
  | _ => invalid path

def objectLoop (path : Text) :
    Nat → List (Text × JsonValue) → ParserState → Parse (JsonValue × ParserState)
  | 0, _, _ => fail .ok path
  | turns + 1, members, state => do
    let (key, rest) ← memberKey path state.rest
    let (value, state) ← child (childPath path key) { state with rest }
    if key ∈ members.map Prod.fst then fail .duplicateKey (childPath path key)
    else
      let members := members ++ [(key, value)]
      match skipWs state.rest with
      | 0x2c :: rest => objectLoop path turns members { state with rest }
      | 0x7d :: rest => .ok (.object members, { state with rest })
      | _ => invalid path

def parseArray (path : Text) (state : ParserState) : Parse (JsonValue × ParserState) :=
  match skipWs state.rest with
  | 0x5d :: rest => .ok (.array [], { state with rest })
  | rest => arrayLoop child path (rest.length + 1) [] { state with rest }

def parseObject (path : Text) (state : ParserState) : Parse (JsonValue × ParserState) :=
  match skipWs state.rest with
  | 0x7d :: rest => .ok (.object [], { state with rest })
  | rest => objectLoop child path (rest.length + 1) [] { state with rest }

/-- `parse_dispatch`, on a text that starts with `c`. -/
def parseDispatch (path : Text) (c : UInt8) (rest : Bytes) (nodes : Nat) :
    Parse (JsonValue × ParserState) :=
  if c == 0x7b then parseObject child path { rest, nodes }
  else if c == 0x5b then parseArray child path { rest, nodes }
  else if c == 0x22 then do
    let (text, rest) ← parseRawString path rest
    return (.string text, { rest, nodes })
  else if c == 0x74 then
    if rest.take 3 = [0x72, 0x75, 0x65] then .ok (.boolean true, { rest := rest.drop 3, nodes })
    else invalid path
  else if c == 0x66 then
    if rest.take 4 = [0x61, 0x6c, 0x73, 0x65] then
      .ok (.boolean false, { rest := rest.drop 4, nodes })
    else invalid path
  else if c == 0x6e then
    if rest.take 3 = [0x75, 0x6c, 0x6c] then .ok (.null, { rest := rest.drop 3, nodes })
    else invalid path
  else do
    let (number, rest) ← parseNumber path (c :: rest)
    return (.number number, { rest, nodes })

end Loops

/-- `parse_value`, with the levels of nesting `depth_` still allows. -/
def parseValue : Nat → Text → ParserState → Parse (JsonValue × ParserState)
  | 0, path, _ => fail .depthLimit path
  | depth + 1, path, state =>
    if state.nodes ≥ kJsonMaximumNodes then fail .nodeLimit path
    else
      match state.rest with
      | [] => invalid path
      | c :: rest => parseDispatch (parseValue depth) path c rest (state.nodes + 1)

def parseJson (text : Bytes) : Parse JsonValue :=
  if text.isEmpty then invalid []
  else if text.length > kMaximumInputBytes then fail .inputTooLarge []
  else do
    let (root, state) ← parseValue kJsonMaximumDepth [] { rest := skipWs text, nodes := 0 }
    if skipWs state.rest ≠ [] then fail .trailingContent [] else return root

end DawnDock
