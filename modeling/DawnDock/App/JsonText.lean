import DawnDock.App.JsonEncoder
import DawnDock.Library.JsonText
import DawnDock.Protocol.BodyParity

/-!
What the encoder writes, as the firmware's parser reads it (`parseJson_jsonEncode`).

The text of a string, and from it that of a value, is one of the grammar: it is followed
through UTF-16 code units, characters and UTF-8 bytes at once (`EncodesAs`).
-/

namespace DawnDock.App

open ByteCodec (Bytes)

/-! ### Code units -/

section Units

theorem and_mask {value : Nat} (small : value < 0x10000) :
    value &&& 0xfc00 = value / 0x400 * 0x400 := by
  have mask : 0xfc00 = (2 ^ 6 - 1) <<< 10 := rfl
  have shifted : value / 0x400 * 0x400 = (value >>> 10) <<< 10 := by
    rw [Nat.shiftRight_eq_div_pow, Nat.shiftLeft_eq]
  rw [mask, shifted]
  apply Nat.eq_of_testBit_eq
  intro i
  rw [Nat.testBit_and, Nat.testBit_shiftLeft, Nat.testBit_shiftLeft, Nat.testBit_two_pow_sub_one,
    Nat.testBit_shiftRight]
  by_cases low : 10 ≤ i
  · by_cases high : i - 10 < 6
    · simp [low, high]
    · have wide : 2 ^ 16 ≤ 2 ^ i := Nat.pow_le_pow_right (Nat.succ_pos 1) (by omega)
      have zero : value.testBit i = false := Nat.testBit_lt_two_pow (Nat.lt_of_lt_of_le small wide)
      simp [low, high, zero]
  · simp [low]

theorem isLead_iff {unit : UInt16} : isLead unit = true ↔ unit.toNat / 0x400 = 0x36 := by
  have masked : unit.toNat &&& 0xfc00 = unit.toNat / 0x400 * 0x400 := and_mask unit.toNat_lt
  rw [isLead, beq_iff_eq, ← UInt16.toNat_inj, UInt16.toNat_and]
  change unit.toNat &&& 0xfc00 = 0xd800 ↔ _
  omega

theorem isTrail_iff {unit : UInt16} : isTrail unit = true ↔ unit.toNat / 0x400 = 0x37 := by
  have masked : unit.toNat &&& 0xfc00 = unit.toNat / 0x400 * 0x400 := and_mask unit.toNat_lt
  rw [isTrail, beq_iff_eq, ← UInt16.toNat_inj, UInt16.toNat_and]
  change unit.toNat &&& 0xfc00 = 0xdc00 ↔ _
  omega

/-- A unit that is no surrogate is not a lone one. -/
theorem isLone_of_scalar {unit : UInt16} (below : unit.toNat / 0x400 ≠ 0x36)
    (above : unit.toNat / 0x400 ≠ 0x37) (previous next : Option UInt16) :
    isLone previous unit next = false := by
  have lead : isLead unit = false := Bool.eq_false_iff.mpr (mt isLead_iff.mp below)
  have trail : isTrail unit = false := Bool.eq_false_iff.mpr (mt isTrail_iff.mp above)
  simp [isLone, lead, trail]

/-- The two surrogates of a pair complete each other. -/
theorem isLone_pair {high low : UInt16} (lead : high.toNat / 0x400 = 0x36)
    (trail : low.toNat / 0x400 = 0x37) (previous next : Option UInt16) :
    isLone previous high (some low) = false ∧ isLone (some high) low next = false := by
  have leads : isLead high = true := isLead_iff.mpr lead
  have trails : isTrail low = true := isTrail_iff.mpr trail
  have noTrail : isTrail high = false := Bool.eq_false_iff.mpr (mt isTrail_iff.mp (by omega))
  have noLead : isLead low = false := Bool.eq_false_iff.mpr (mt isLead_iff.mp (by omega))
  simp [isLone, leads, trails, noTrail, noLead]

end Units

/-! ### Encodings -/

/-- The text and the bytes are the encodings of some characters. -/
def EncodesAs (text : DartString) (bytes : Bytes) : Prop :=
  ∃ chars, text = Utf16.encode chars ∧ bytes = Utf8.encode chars

namespace EncodesAs

theorem nil : EncodesAs [] [] := ⟨[], rfl, rfl⟩

theorem append {text more : DartString} {bytes further : Bytes} (first : EncodesAs text bytes)
    (second : EncodesAs more further) : EncodesAs (text ++ more) (bytes ++ further) := by
  obtain ⟨chars, rfl, rfl⟩ := first
  obtain ⟨others, rfl, rfl⟩ := second
  exact ⟨chars ++ others, List.flatMap_append.symm, (Utf8.encode_append chars others).symm⟩

theorem ascii {chars : List Char} (small : ∀ c ∈ chars, c.toNat < 128) :
    EncodesAs (asciiUnits chars) (Json.ascii chars) := by
  induction chars with
  | nil => exact nil
  | cons c chars ih =>
      rw [List.forall_mem_cons] at small
      have first : EncodesAs [UInt16.ofNat c.toNat] [UInt8.ofNat c.toNat] := by
        refine ⟨[c], ?_, ?_⟩
        · rw [Utf16.encode_cons, Utf16.ofRune_ascii small.1]
          rfl
        · rw [Utf8.encode_cons, Utf16.utf8_ascii small.1]
          rfl
      exact first.append (ih small.2)

theorem literal (text : String) : EncodesAs (utf16 text) (utf8 text) :=
  ⟨text.toList, rfl, utf8_eq text⟩

theorem intercalate {texts : List DartString} {bytes : List Bytes}
    (each : List.Forall₂ EncodesAs texts bytes) :
    EncodesAs (separated texts) (List.intercalate [0x2c] bytes) := by
  have comma : EncodesAs [0x2c] [0x2c] := literal ","
  induction each with
  | nil => exact nil
  | @cons text first texts bytes head others ih =>
      cases others with
      | nil =>
          rw [separated, List.intercalate, List.intercalate, List.intersperse_singleton,
            List.intersperse_singleton, List.flatten_singleton, List.flatten_singleton]
          exact head
      | cons second others =>
          rw [separated, List.intercalate, List.intercalate, List.intersperse_cons_cons,
            List.intersperse_cons_cons, List.flatten_cons, List.flatten_cons, List.flatten_cons,
            List.flatten_cons, ← List.intercalate, ← List.intercalate]
          exact head.append (comma.append ih)

end EncodesAs

/-! ### Strings -/

section Strings

theorem hexDigit_digitChar {value : Nat} (small : value < 16) :
    Json.HexDigit (UInt8.ofNat (Nat.digitChar value).toNat) value := by
  have codes : ∀ value < 16,
      (UInt8.ofNat (Nat.digitChar value).toNat).toNat = 0x30 + value ∧ value < 10 ∨
        (UInt8.ofNat (Nat.digitChar value).toNat).toNat = 0x61 + (value - 10) ∧ 10 ≤ value := by
    decide
  rcases codes value small with ⟨code, digit⟩ | ⟨code, letter⟩
  · exact .inl ⟨code, digit⟩
  · exact .inr (.inl ⟨code, letter, small⟩)

/-- A character and the bytes of what the encoder writes for it. -/
def Escapes (text : DartString) (c : Char) : Prop :=
  ∃ bytes, EncodesAs text bytes ∧ ∀ rest, Json.Character (bytes ++ rest) c rest

theorem escapes_unicode {c : Char} (control : c.toNat < 0x20) :
    Escapes (unicodeEscape (UInt16.ofNat c.toNat)) c := by
  have written : ∀ code < 0x20, unicodeEscape (UInt16.ofNat code) =
      asciiUnits ['\\', 'u', '0', '0', Nat.digitChar (code / 16), Nat.digitChar (code % 16)] := by
    decide
  have ascii : ∀ code < 0x20, ∀ sign ∈
      ['\\', 'u', '0', '0', Nat.digitChar (code / 16), Nat.digitChar (code % 16)],
        sign.toNat < 128 := by
    intro code small
    have digit : ∀ value < 16, (Nat.digitChar value).toNat < 128 := by
      decide
    simp only [List.forall_mem_cons]
    exact ⟨by decide, by decide, by decide, by decide, digit _ (by omega), digit _ (by omega),
      List.forall_mem_nil _⟩
  rw [written _ control]
  refine ⟨_, .ascii (ascii _ control), fun rest => ?_⟩
  have zero : Json.HexDigit 0x30 0 := .inl ⟨rfl, Nat.succ_pos _⟩
  have high := @hexDigit_digitChar (c.toNat / 16) (by omega)
  have low := @hexDigit_digitChar (c.toNat % 16) (by omega)
  have hex := @Json.Hex4.mk _ _ _ _ _ _ _ _ rest zero zero high low
  have value : ((0 * 16 + 0) * 16 + c.toNat / 16) * 16 + c.toNat % 16 = c.toNat := by omega
  rw [value] at hex
  exact .unicode (.scalar hex)

theorem escapes_simple {c : Char} {sign : UInt16} {byte : UInt8}
    (same : EncodesAs [0x5c, sign] [0x5c, byte]) (escape : Json.SimpleEscape byte c) :
    Escapes [0x5c, sign] c := ⟨_, same, fun _ => .simple escape⟩

theorem escapes_unescaped {c : Char} (plain : Json.Unescaped c) :
    Escapes (Utf16.ofRune c.toNat) c := by
  refine ⟨String.utf8EncodeChar c, ⟨[c], ?_, ?_⟩, fun _ => .unescaped plain⟩
  · rw [Utf16.encode_cons, Utf16.encode_nil, List.append_nil]
  · rw [Utf8.encode_cons, Utf8.encode_nil, List.append_nil]

theorem escapes_canonicalRune (c : Char) : Escapes (canonicalRune c.toNat) c := by
  unfold canonicalRune
  split
  · obtain rfl : c = '"' := Utf8.char_eq ‹_›
    exact escapes_simple (.literal "\\\"") .quote
  rename_i quote
  split
  · obtain rfl : c = '\\' := Utf8.char_eq ‹_›
    exact escapes_simple (.literal "\\\\") .backslash
  rename_i backslash
  split
  · obtain rfl : c = '\x08' := Utf8.char_eq ‹_›
    exact escapes_simple (.literal "\\b") .backspace
  split
  · obtain rfl : c = '\x0c' := Utf8.char_eq ‹_›
    exact escapes_simple (.literal "\\f") .formFeed
  split
  · obtain rfl : c = '\n' := Utf8.char_eq ‹_›
    exact escapes_simple (.literal "\\n") .lineFeed
  split
  · obtain rfl : c = '\r' := Utf8.char_eq ‹_›
    exact escapes_simple (.literal "\\r") .carriageReturn
  split
  · obtain rfl : c = '\t' := Utf8.char_eq ‹_›
    exact escapes_simple (.literal "\\t") .tab
  split
  · rename_i control
    have same : ∀ code < 0x20, controlEscape code = unicodeEscape (UInt16.ofNat code) := by decide
    rw [same _ control]
    exact escapes_unicode control
  · rename_i visible
    apply escapes_unescaped
    refine ⟨Nat.not_lt.mp visible, ?_, ?_⟩
    · rintro rfl
      exact quote rfl
    · rintro rfl
      exact backslash rfl

theorem escapeUnit_plain {previous next : Option UInt16} {unit : UInt16}
    (paired : isLone previous unit next = false) (visible : ¬ unit < 0x20)
    (plain : ¬ (unit = 0x22 || unit = 0x5c) = true) : escapeUnit previous unit next = [unit] := by
  rw [escapeUnit, paired, if_neg Bool.false_ne_true, if_neg visible, if_neg plain]

theorem canonicalRune_plain {code : Nat} (wide : 0x80 ≤ code) :
    canonicalRune code = Utf16.ofRune code := by
  unfold canonicalRune
  rw [if_neg (by omega), if_neg (by omega), if_neg (by omega), if_neg (by omega),
    if_neg (by omega), if_neg (by omega), if_neg (by omega), if_neg (by omega)]

theorem plain_of_wide {unit : UInt16} (wide : 0x80 ≤ unit.toNat) :
    ¬ unit < 0x20 ∧ ¬ (unit = 0x22 || unit = 0x5c) = true := by
  rw [UInt16.lt_iff_toNat_lt, Bool.or_eq_true, decide_eq_true_eq, decide_eq_true_eq,
    ← UInt16.toNat_inj, ← UInt16.toNat_inj]
  change ¬ unit.toNat < 0x20 ∧ ¬ (unit.toNat = 0x22 ∨ unit.toNat = 0x5c)
  omega

/-- A character of one unit. -/
theorem escapeUnit_scalar {c : Char} (small : c.toNat < 0x10000) (previous next : Option UInt16) :
    escapeUnit previous (UInt16.ofNat c.toNat) next = canonicalRune c.toNat := by
  have scalar := Utf8.scalar_toNat c
  unfold Utf8.Scalar at scalar
  have value := Utf16.toNat_ofNat_of_lt small
  have paired (previous next : Option UInt16) :
      isLone previous (UInt16.ofNat c.toNat) next = false :=
    isLone_of_scalar (by omega) (by omega) previous next
  by_cases wide : 0x80 ≤ c.toNat
  · obtain ⟨visible, plain⟩ := plain_of_wide (value.symm ▸ wide)
    rw [escapeUnit_plain (paired _ _) visible plain, canonicalRune_plain wide]
    exact (if_pos small).symm
  · have ascii : ∀ code < 0x80, escapeUnit none (UInt16.ofNat code) none = canonicalRune code := by
      decide
    rw [← ascii _ (Nat.not_le.mp wide), escapeUnit, escapeUnit, paired, paired]

/-- What the encoder writes for a character, and that it goes on behind it. -/
theorem escapeUnits_ofRune (previous : Option UInt16) (c : Char) (after : DartString) :
    ∃ last, escapeUnits previous (Utf16.ofRune c.toNat ++ after) =
      canonicalRune c.toNat ++ escapeUnits (some last) after := by
  have scalar := Utf8.scalar_toNat c
  unfold Utf8.Scalar at scalar
  by_cases small : c.toNat < 0x10000
  · have single : Utf16.ofRune c.toNat = [UInt16.ofNat c.toNat] := if_pos small
    rw [single, ← escapeUnit_scalar small previous after.head?]
    exact ⟨_, rfl⟩
  · obtain ⟨high, low, pair, lead, trail⟩ : ∃ high low : UInt16,
        Utf16.ofRune c.toNat = [high, low] ∧ high.toNat / 0x400 = 0x36 ∧
          low.toNat / 0x400 = 0x37 := by
      refine ⟨_, _, if_neg small, ?_, ?_⟩
      · rw [Utf16.toNat_ofNat_of_lt (by omega)]
        omega
      · rw [Utf16.toNat_ofNat_of_lt (by omega)]
        omega
    obtain ⟨paired, pairing⟩ := isLone_pair lead trail previous after.head?
    obtain ⟨visible, plain⟩ := @plain_of_wide high (by omega)
    have first := escapeUnit_plain paired visible plain
    obtain ⟨visible, plain⟩ := @plain_of_wide low (by omega)
    have second := escapeUnit_plain pairing visible plain
    rw [canonicalRune_plain (by omega), pair]
    refine ⟨low, ?_⟩
    change escapeUnit previous high (some low) ++ (escapeUnit (some high) low after.head? ++ _) = _
    rw [first, second]
    rfl

theorem escapeUnits_encode (previous : Option UInt16) (chars : List Char) :
    escapeUnits previous (Utf16.encode chars) =
      (chars.map Char.toNat).flatMap canonicalRune := by
  induction chars generalizing previous with
  | nil => rfl
  | cons c chars ih =>
      obtain ⟨last, written⟩ := escapeUnits_ofRune previous c (Utf16.encode chars)
      rw [Utf16.encode_cons, written, ih, List.map_cons, List.flatMap_cons]

/-- The encoder and the gate write a string of characters alike. -/
theorem encodeString_encode (chars : List Char) :
    encodeString (Utf16.encode chars) = canonicalString (Utf16.encode chars) := by
  rw [encodeString, escapeUnits_encode, canonicalString, Utf16.runes_encode]

theorem canonicalRunes_read (chars : List Char) :
    ∃ bytes, EncodesAs ((chars.map Char.toNat).flatMap canonicalRune) bytes ∧
      ∀ rest, Json.Characters (bytes ++ 0x22 :: rest) chars rest := by
  induction chars with
  | nil => exact ⟨[], .nil, fun _ => .close⟩
  | cons c chars ih =>
      obtain ⟨front, encoded, reads⟩ := escapes_canonicalRune c
      obtain ⟨back, others, follow⟩ := ih
      refine ⟨front ++ back, encoded.append others, fun rest => ?_⟩
      rw [List.append_assoc]
      exact .more (reads _) (follow rest)

/-- A string of characters is written as a string of the grammar. -/
theorem encodeString_read (chars : List Char) :
    ∃ bytes, EncodesAs (encodeString (Utf16.encode chars)) bytes ∧
      ∀ rest, Json.Str (bytes ++ rest) chars rest := by
  obtain ⟨content, encoded, reads⟩ := canonicalRunes_read chars
  have quote : EncodesAs [0x22] [0x22] := .literal "\""
  rw [encodeString, escapeUnits_encode]
  refine ⟨[0x22] ++ content ++ [0x22], (quote.append encoded).append quote, fun rest => ?_⟩
  rw [List.append_assoc, List.append_assoc]
  exact .mk (reads rest)

end Strings

/-! ### Sizes -/

section Sizes

/-- Every surrogate in the text is one of a pair. -/
def IsWellFormed (text : DartString) : Prop := ∃ chars, text = Utf16.encode chars

variable {text more : DartString} {bytes : Bytes}

theorem EncodesAs.wellFormed (encoded : EncodesAs text bytes) : IsWellFormed text := by
  obtain ⟨chars, same, -⟩ := encoded
  exact ⟨chars, same⟩

theorem EncodesAs.size (encoded : EncodesAs text bytes) : utf8Length text = bytes.length := by
  obtain ⟨chars, rfl, rfl⟩ := encoded
  exact utf8Length_encode chars

theorem IsWellFormed.encodes (wellFormed : IsWellFormed text) : ∃ bytes, EncodesAs text bytes := by
  obtain ⟨chars, rfl⟩ := wellFormed
  exact ⟨_, chars, rfl, rfl⟩

theorem IsWellFormed.append (first : IsWellFormed text) (second : IsWellFormed more) :
    IsWellFormed (text ++ more) ∧
      utf8Length (text ++ more) = utf8Length text + utf8Length more := by
  obtain ⟨bytes, front⟩ := first.encodes
  obtain ⟨others, back⟩ := second.encodes
  have both := front.append back
  refine ⟨both.wellFormed, ?_⟩
  rw [both.size, front.size, back.size, List.length_append]

/-- A comma between texts is one byte. -/
theorem separated_size {texts : List DartString} (each : ∀ text ∈ texts, IsWellFormed text) :
    IsWellFormed (separated texts) ∧
      utf8Length (separated texts) = (texts.map utf8Length).sum + (texts.length - 1) := by
  have comma : EncodesAs [0x2c] [0x2c] := .literal ","
  induction texts with
  | nil => exact ⟨EncodesAs.nil.wellFormed, rfl⟩
  | cons text texts ih =>
      rw [List.forall_mem_cons] at each
      obtain ⟨others, size⟩ := ih each.2
      cases texts with
      | nil =>
          rw [separated, List.intercalate, List.intersperse_singleton, List.flatten_singleton]
          exact ⟨each.1, rfl⟩
      | cons second texts =>
          have joined : separated (text :: second :: texts) =
              text ++ ([0x2c] ++ separated (second :: texts)) := rfl
          obtain ⟨back, backSize⟩ := comma.wellFormed.append others
          obtain ⟨whole, wholeSize⟩ := each.1.append back
          rw [joined]
          refine ⟨whole, ?_⟩
          rw [wholeSize, backSize, comma.size, size]
          simp
          omega

end Sizes

/-! ### Values -/

section Values

variable {δ : Type} [Double δ] {child : Json.Document → Bytes → Bytes → Prop} {level : Nat}

/-- The texts of a document: the one that is sent, and the one that the gate measures. -/
structure Written (child : Json.Document → Bytes → Bytes → Prop) (text canonical : DartString)
    (document : Json.Document) : Prop where
  read : ∃ bytes, EncodesAs text bytes ∧ Json.Denotes child bytes document
  wellFormed : IsWellFormed canonical
  size : utf8Length canonical = utf8Length text

/-- The encoder and the gate write the document. -/
abbrev IsWritten (δ : Type) [Double δ] (child : Json.Document → Bytes → Bytes → Prop)
    (level : Nat) (document : Json.Document) : Prop :=
  ∃ text canonical, encodeValue none level (decoded document : Value δ) = some text ∧
    writeCanonical (decoded document : Value δ) = some canonical ∧
    Written child text canonical document

theorem written_of_same {text : DartString} {bytes : Bytes} {document : Json.Document}
    (encoded : EncodesAs text bytes) (denotes : Json.Denotes child bytes document) :
    Written child text text document := ⟨⟨bytes, encoded, denotes⟩, encoded.wellFormed, rfl⟩

theorem intText_read (value : Int) : ∃ bytes, EncodesAs (intText value) bytes ∧
    ∀ rest, Json.Number (bytes ++ rest) value rest := by
  have digits : EncodesAs (asciiUnits (Nat.toDigits 10 value.natAbs))
      (Json.ascii (Nat.toDigits 10 value.natAbs)) := by
    apply EncodesAs.ascii
    intro c mem
    have isDigit := Nat.isDigit_of_mem_toDigits (by omega) (by omega) mem
    rw [Char.isDigit, Bool.and_eq_true, decide_eq_true_eq, decide_eq_true_eq] at isDigit
    exact Nat.lt_of_le_of_lt isDigit.2 (by decide)
  have minus : EncodesAs [0x2d] [0x2d] := .literal "-"
  rw [intText]
  split
  · refine ⟨_, minus.append digits, fun rest => ?_⟩
    have read := Json.Number.minus (Json.natural_toDigits value.natAbs rest)
    rwa [show -((value.natAbs : Nat) : Int) = value by omega] at read
  · refine ⟨_, digits, fun rest => ?_⟩
    have read := Json.Number.natural (Json.natural_toDigits value.natAbs rest)
    rwa [show ((value.natAbs : Nat) : Int) = value by omega] at read

theorem encodeElements_decoded {elements : List Json.Document}
    (each : ∀ element ∈ elements, IsWritten δ child level element) :
    ∃ texts canonicals bytes,
      encodeElements none level (elements.map decoded : List (Value δ)) = some texts ∧
        writeElements (elements.map decoded : List (Value δ)) = some canonicals ∧
        List.Forall₂ EncodesAs texts bytes ∧ List.Forall₂ (Json.Denotes child) bytes elements ∧
        (∀ canonical ∈ canonicals, IsWellFormed canonical) ∧
        canonicals.map utf8Length = texts.map utf8Length := by
  induction elements with
  | nil => exact ⟨[], [], [], rfl, rfl, .nil, .nil, List.forall_mem_nil _, rfl⟩
  | cons element elements ih =>
      rw [List.forall_mem_cons] at each
      obtain ⟨⟨text, canonical, encoded, wrote, written⟩, others⟩ := each
      obtain ⟨⟨first, same, denotes⟩, wellFormed, size⟩ := written
      obtain ⟨texts, canonicals, bytes, moreEncoded, moreWrote, sames, denote, each, sizes⟩ :=
        ih others
      refine ⟨text :: texts, canonical :: canonicals, first :: bytes, ?_, ?_, .cons same sames,
        .cons denotes denote, List.forall_mem_cons.mpr ⟨wellFormed, each⟩, ?_⟩
      · rw [List.map_cons, encodeElements, encoded, moreEncoded]
        rfl
      · rw [List.map_cons, writeElements, wrote, moreWrote]
        rfl
      · rw [List.map_cons, List.map_cons, size, sizes]

/-- The canonical text of an entry. -/
def canonicalEntry (entry : DartString × DartString) : DartString :=
  canonicalString entry.1 ++ [0x3a] ++ entry.2

theorem encodeEntries_decoded {members : List (List Char × Json.Document)}
    (each : ∀ member ∈ members, IsWritten δ child level member.2) :
    ∃ texts canonicals bytes,
      encodeEntries none level (members.map decodedEntry : Entries δ) = some texts ∧
        writeEntries (members.map decodedEntry : Entries δ) = some canonicals ∧
        List.Forall₂ EncodesAs texts bytes ∧ List.Forall₂ (Json.MemberText child) bytes members ∧
        (∀ canonical ∈ canonicals, IsWellFormed (canonicalEntry canonical)) ∧
        (canonicals.map canonicalEntry).map utf8Length = texts.map utf8Length := by
  have colon : EncodesAs [0x3a] [0x3a] := .literal ":"
  induction members with
  | nil => exact ⟨[], [], [], rfl, rfl, .nil, .nil, List.forall_mem_nil _, rfl⟩
  | cons member members ih =>
      rw [List.forall_mem_cons] at each
      obtain ⟨⟨text, canonical, encoded, wrote, written⟩, others⟩ := each
      obtain ⟨⟨first, same, denotes⟩, wellFormed, size⟩ := written
      obtain ⟨texts, canonicals, bytes, moreEncoded, moreWrote, sames, denote, each, sizes⟩ :=
        ih others
      obtain ⟨key, keyed, reads⟩ := encodeString_read member.1
      have entry := keyed.append colon
      have wrapped := entry.append same
      obtain ⟨measured, length⟩ := entry.wellFormed.append wellFormed
      refine ⟨(encodeString (Utf16.encode member.1) ++ [0x3a] ++ text) :: texts,
        (Utf16.encode member.1, canonical) :: canonicals, (key ++ [0x3a] ++ first) :: bytes, ?_, ?_,
        .cons wrapped sames, .cons ⟨key, first, ?_, reads, denotes⟩ denote, ?_, ?_⟩
      · rw [List.map_cons, decodedEntry, encodeEntries, encoded, moreEncoded]
        rfl
      · rw [List.map_cons, decodedEntry, writeEntries, wrote, moreWrote]
        rfl
      · rw [List.append_assoc]
        rfl
      · rw [List.forall_mem_cons, canonicalEntry, ← encodeString_encode]
        exact ⟨measured, each⟩
      · rw [List.map_cons, List.map_cons, List.map_cons, sizes, canonicalEntry,
          ← encodeString_encode, length, size, (entry.wellFormed.append same.wellFormed).2]

/-- What the encoder and the gate put around the parts of a container. -/
theorem bracketed_compact (opening closing : UInt16) {texts : List DartString}
    (nonempty : texts ≠ []) : bracketed opening closing none level texts =
      [opening] ++ separated texts ++ [closing] := by
  cases texts with
  | nil => exact absurd rfl nonempty
  | cons text texts => simp [bracketed, newline]

/-- The texts of a container whose parts are written. -/
theorem container_sizes {texts canonicals : List DartString} {bytes : List Bytes}
    {opening closing : DartString} {first last : Bytes}
    (encoded : List.Forall₂ EncodesAs texts bytes)
    (opens : EncodesAs opening first) (closes : EncodesAs closing last)
    (each : ∀ canonical ∈ canonicals, IsWellFormed canonical)
    (sizes : (canonicals.map utf8Length).Perm (texts.map utf8Length)) :
    EncodesAs (opening ++ separated texts ++ closing)
        (first ++ List.intercalate [0x2c] bytes ++ last) ∧
      IsWellFormed (opening ++ separated canonicals ++ closing) ∧
      utf8Length (opening ++ separated canonicals ++ closing) =
        utf8Length (opening ++ separated texts ++ closing) := by
  have joined := EncodesAs.intercalate encoded
  have plain : ∀ text ∈ texts, IsWellFormed text := by
    intro text mem
    obtain ⟨index, found⟩ := List.mem_iff_get.mp mem
    have same := List.Forall₂.get encoded index.2 (encoded.length_eq ▸ index.2)
    rw [← found]
    exact same.wellFormed
  obtain ⟨measured, size⟩ := separated_size each
  have textSize := (separated_size plain).2
  have lengths := sizes.length_eq
  rw [List.length_map, List.length_map] at lengths
  have inner : utf8Length (separated canonicals) = utf8Length (separated texts) := by
    rw [size, textSize, sizes.sum_nat, lengths]
  obtain ⟨front, frontSize⟩ := opens.wellFormed.append measured
  obtain ⟨whole, wholeSize⟩ := front.append closes.wellFormed
  obtain ⟨textFront, textFrontSize⟩ := opens.wellFormed.append joined.wellFormed
  refine ⟨(opens.append joined).append closes, whole, ?_⟩
  rw [wholeSize, frontSize, inner, (textFront.append closes.wellFormed).2, textFrontSize]

theorem number_isWritten {depth : Nat} {value : Int} (fits : FitsInt64 value) :
    IsWritten δ (Json.Value (depth + 1)) level (.number value) := by
  obtain ⟨bytes, encoded, reads⟩ := intText_read value
  have same : (Int64.ofInt value).toInt = value := Int64.toInt_ofInt_of_le fits.1 fits.2
  refine ⟨intText value, intText value, ?_, ?_,
    written_of_same encoded fun rest => .number (reads rest)⟩
  · exact congrArg (some ∘ intText) same
  · exact congrArg (some ∘ intText) same

theorem array_isWritten {depth : Nat} {elements : List Json.Document}
    (each : ∀ element ∈ elements, IsWritten δ (Json.Value depth) (level + 1) element) :
    IsWritten δ (Json.Value (depth + 1)) level (.array elements) := by
  have opens : EncodesAs [0x5b] [0x5b] := .literal "["
  have closes : EncodesAs [0x5d] [0x5d] := .literal "]"
  by_cases empty : elements = []
  · subst empty
    exact ⟨_, _, rfl, rfl, written_of_same (.literal "[]") fun _ => .emptyArray .done⟩
  obtain ⟨texts, canonicals, bytes, encoded, wrote, sames, denote, measuredEach, sizes⟩ :=
    encodeElements_decoded each
  have nonempty : texts ≠ [] := by
    rintro rfl
    cases sames
    cases denote
    exact empty rfl
  obtain ⟨whole, measured, size⟩ := container_sizes sames opens closes measuredEach (.of_eq sizes)
  refine ⟨_, [0x5b] ++ separated canonicals ++ [0x5d], ?_, ?_,
    ⟨_, whole, fun rest => ?_⟩, measured, size⟩
  · rw [decoded_array, encodeValue, encoded, ← bracketed_compact _ _ nonempty]
    rfl
  · rw [decoded_array, writeCanonical, wrote]
    rfl
  · rw [List.append_assoc, List.append_assoc]
    exact .array (Json.elements_intercalate denote empty _)

/-- The gate writes the members in the order of their keys. -/
theorem object_isWritten {depth : Nat} {members : List (List Char × Json.Document)}
    (each : ∀ member ∈ members, IsWritten δ (Json.Value depth) (level + 1) member.2) :
    IsWritten δ (Json.Value (depth + 1)) level (.object members) := by
  have opens : EncodesAs [0x7b] [0x7b] := .literal (String.singleton '\x7b')
  have closes : EncodesAs [0x7d] [0x7d] := .literal (String.singleton '\x7d')
  by_cases empty : members = []
  · subst empty
    exact ⟨_, _, rfl, rfl, written_of_same (opens.append closes) fun _ => .emptyObject .done⟩
  obtain ⟨texts, canonicals, bytes, encoded, wrote, sames, denote, measuredEach, sizes⟩ :=
    encodeEntries_decoded each
  have nonempty : texts ≠ [] := by
    rintro rfl
    cases sames
    cases denote
    exact empty rfl
  have sorted : (sortKeys canonicals).Perm canonicals := List.perm_insertionSort _ _
  have sortedEach : ∀ canonical ∈ (sortKeys canonicals).map canonicalEntry,
      IsWellFormed canonical := by
    rw [List.forall_mem_map]
    exact fun entry mem => measuredEach entry (sorted.mem_iff.mp mem)
  have reordered : (((sortKeys canonicals).map canonicalEntry).map utf8Length).Perm
      (texts.map utf8Length) := by
    rw [← sizes]
    exact (sorted.map _).map _
  obtain ⟨whole, measured, size⟩ := container_sizes sames opens closes sortedEach reordered
  refine ⟨_, _, ?_, ?_, ⟨_, whole, fun rest => ?_⟩, measured, size⟩
  · rw [decoded_object, encodeValue, encoded, ← bracketed_compact _ _ nonempty]
    rfl
  · rw [decoded_object, writeCanonical, wrote]
    rfl
  · rw [List.append_assoc, List.append_assoc]
    exact .object (Json.members_intercalate denote empty _)

/-- Both texts of a document whose values are within the limits of the parser. -/
theorem encodeValue_decoded (depth : Nat) : ∀ (document : Json.Document) (level : Nat),
    Json.NestsWithin depth document → AllWithin document →
      IsWritten δ (Json.Value depth) level document := by
  induction depth with
  | zero => exact fun _ _ nests => nests.elim
  | succ depth ih =>
      intro document level nests within
      cases document with
      | null => exact ⟨_, _, rfl, rfl, written_of_same (.literal "null") fun _ => .null⟩
      | boolean value =>
          cases value with
          | true => exact ⟨_, _, rfl, rfl, written_of_same (.literal "true") fun _ => .true⟩
          | false => exact ⟨_, _, rfl, rfl, written_of_same (.literal "false") fun _ => .false⟩
      | number value =>
          exact number_isWritten (within (.number value) (List.mem_singleton_self _))
      | string text =>
          obtain ⟨bytes, encoded, reads⟩ := encodeString_read text
          refine ⟨_, _, rfl, ?_, written_of_same encoded fun rest => .string (reads rest)⟩
          exact congrArg some (encodeString_encode text).symm
      | array elements =>
          exact array_isWritten fun element mem =>
            ih element (level + 1) (nests element mem) (allWithin_array.mp within element mem)
      | object members =>
          exact object_isWritten fun member mem =>
            ih member.2 (level + 1) (nests member mem)
              ((allWithin_object.mp within).2 member mem).2

/-- The parser reads what the encoder writes for a document within its limits, of the size that
the gate measures: the same document. -/
theorem parseJson_written {document : Json.Document} (nests : Json.NestsWithin 16 document)
    (count : document.count ≤ 8192) (within : AllWithin document) :
    ∃ text bytes canonical, jsonEncode (decoded document : Value δ) = some text ∧
      EncodesAs text bytes ∧ writeCanonical (decoded document : Value δ) = some canonical ∧
      utf8Length canonical = bytes.length ∧
      (bytes.length ≤ 65536 → parseJson bytes = .ok (represent document)) := by
  obtain ⟨text, canonical, encoded, wrote, ⟨bytes, same, denotes⟩, -, size⟩ :=
    encodeValue_decoded (δ := δ) 16 document 0 nests within
  refine ⟨text, bytes, canonical, encoded, same, wrote, size.trans same.size, fun short => ?_⟩
  have read := denotes []
  rw [List.append_nil] at read
  obtain ⟨c, rest, first, -, -⟩ := value_head read
  have nonempty : 1 ≤ bytes.length := by
    rw [first]
    exact Nat.succ_pos _
  exact (parseJson_ok_iff bytes _).mpr
    ⟨nonempty, short, document, ⟨bytes, [], .done, read, .done⟩, count, within, rfl⟩

end Values

end DawnDock.App
