import DawnDock.Protocol.MessageBody
import DawnDock.Protocol.Contract

/-!
The checks on strings agree in both languages: the firmware's on UTF-8 bytes and the
app's on UTF-16 code units give the same result for the same characters.

A check that passes ASCII texts only is compared on ASCII codes (`SameOnText.of_ascii`);
the lengths the app counts are those of the UTF-8 bytes.
-/

namespace DawnDock

/-- The two checks agree on the encodings of every text. -/
def SameOnText (firmware : Text → Bool) (app : App.DartString → Bool) : Prop :=
  ∀ chars, firmware (Utf8.encode chars) = app (Utf16.encode chars)

/-- Checks that pass ASCII only agree if they do on ASCII codes. -/
theorem SameOnText.of_ascii {firmware : Text → Bool} {app : App.DartString → Bool}
    (narrow : ∀ {bytes}, firmware bytes = true → ∀ b ∈ bytes, b.toNat < 128)
    (narrow_app : ∀ {units}, app units = true → ∀ u ∈ units, u.toNat < 128)
    (same : ∀ codes : List Nat, (∀ code ∈ codes, code < 128) →
      firmware (codes.map UInt8.ofNat) = app (codes.map UInt16.ofNat)) :
    SameOnText firmware app := by
  intro chars
  obtain ⟨codes, small, bytes, units⟩ | ⟨⟨b, b_mem, b_wide⟩, u, u_mem, u_wide⟩ :=
    Utf16.ascii_or_wide chars
  · rw [bytes, units]
    exact same codes small
  · have rejected : firmware (Utf8.encode chars) = false := by
      rw [Bool.eq_false_iff]
      intro passed
      exact absurd (narrow passed b b_mem) (Nat.not_lt.mpr b_wide)
    have rejected_app : app (Utf16.encode chars) = false := by
      rw [Bool.eq_false_iff]
      intro passed
      exact absurd (narrow_app passed u u_mem) (Nat.not_lt.mpr u_wide)
    rw [rejected, rejected_app]

/-- The bytes of a text are its characters' encodings. -/
theorem utf8_eq (text : String) : utf8 text = Utf8.encode text.toList := by
  have bytes : text.toByteArray = (text.toList.flatMap String.utf8EncodeChar).toByteArray := by
    conv_lhs => rw [← @String.ofList_toList text]
    rfl
  rw [utf8, String.toUTF8, bytes, Utf8.encode]
  simp

/-- Texts that differ differ in their units. -/
theorem utf16_inj {first second : String} : App.utf16 first = App.utf16 second ↔ first = second := by
  constructor
  · intro same
    exact String.toList_inj.mp (Utf16.encode_injective same)
  · exact congrArg App.utf16

/-! ### Lengths -/

/-- The length that the app computes is the one in bytes. -/
theorem utf8Length_eq (text : App.DartString) : App.utf8Length text = Utf16.utf8Length text := by
  have step (runes : List Nat) (before : Nat) : runes.foldl (fun bytes unit =>
      if unit < 0x80 then bytes + 1
      else if unit < 0x800 then bytes + 2
      else if unit < 0x10000 then bytes + 3
      else bytes + 4) before = before + (runes.map fun rune => (Utf8.units rune).length).sum := by
    induction runes generalizing before with
    | nil => rfl
    | cons rune runes ih =>
        rw [List.foldl_cons, ih, List.map_cons, List.sum_cons, ← Nat.add_assoc]
        congr 1
        unfold Utf8.units
        by_cases one : rune ≤ 0x7f
        · rw [if_pos (Nat.lt_succ_of_le one), if_pos one]
          rfl
        rw [if_neg (by omega), if_neg one]
        by_cases two : rune ≤ 0x7ff
        · rw [if_pos (Nat.lt_succ_of_le two), if_pos two]
          rfl
        rw [if_neg (by omega), if_neg two]
        by_cases three : rune ≤ 0xffff
        · rw [if_pos (Nat.lt_succ_of_le three), if_pos three]
          rfl
        rw [if_neg (by omega), if_neg three]
        rfl
  rw [App.utf8Length, step, Nat.zero_add, Utf16.utf8Length]

/-- Of a text in UTF-16, the app counts the bytes that the firmware receives. -/
theorem utf8Length_encode (chars : List Char) :
    App.utf8Length (Utf16.encode chars) = (Utf8.encode chars).length := by
  rw [utf8Length_eq, Utf16.utf8Length_encode]

theorem not_decide_gt {a b : Nat} : (!decide (a > b)) = decide (a ≤ b) := by
  rw [← decide_not]
  exact decide_eq_decide.mpr Nat.not_lt

/-- Both sides bound a text by its bytes. -/
theorem same_bounded (maximum : Nat) :
    SameOnText (fun text => text.length ≤ maximum) (App.isUtf8Bounded · maximum) := by
  intro chars
  dsimp only
  rw [App.isUtf8Bounded, utf8Length_encode]

/-- Both sides want a text that is not empty and within the bound. -/
theorem same_short (maximum : Nat) :
    SameOnText (fun text => !(text.isEmpty || text.length > maximum))
      (fun text => !text.isEmpty && App.isUtf8Bounded text maximum) := by
  intro chars
  dsimp only
  rw [App.isUtf8Bounded, utf8Length_encode, Utf16.encode_isEmpty, Bool.not_or, not_decide_gt]

/-- Both sides want three bytes at least, and the bound. -/
theorem same_timezone :
    SameOnText (fun text => !(text.length < 3 || text.length > kBodyMaximumTimezoneBytes))
      (fun text => !(App.utf8Length text < 3) && App.isUtf8Bounded text App.kMaxTimezoneBytes) := by
  intro chars
  dsimp only
  rw [App.isUtf8Bounded, utf8Length_encode, Bool.not_or]
  exact congrArg _ not_decide_gt

/-! ### Constants -/

/-- Both languages look a text up among the same constants. -/
theorem same_contains {names appNames : List String} (same : names.Perm appNames) :
    SameOnText (names.map utf8).contains (appNames.map App.utf16).contains := by
  intro chars
  rw [Bool.eq_iff_iff, List.contains_iff_mem, List.contains_iff_mem, List.mem_map, List.mem_map]
  refine exists_congr fun name => and_congr same.mem_iff ?_
  rw [utf8_eq, App.utf16]
  exact ⟨fun equal => congrArg _ (Utf8.encode_injective equal),
    fun equal => congrArg _ (Utf16.encode_injective equal)⟩

/-! ### Patterns -/

section Ascii

variable {codes : List Nat}

/-- Below 128 both sides have the same classes of characters. -/
theorem isLowerAlnum_ascii : ∀ code < 128, isLowerAlnum (UInt8.ofNat code) =
    (App.lower (UInt16.ofNat code) || App.digit (UInt16.ofNat code)) := by decide

theorem isIdTailChar_ascii : ∀ code < 128, isIdTailChar (UInt8.ofNat code) =
    (App.lower (UInt16.ofNat code) || App.digit (UInt16.ofNat code) ||
      UInt16.ofNat code == 0x2e || UInt16.ofNat code == 0x5f || UInt16.ofNat code == 0x2d) := by
  decide

theorem isdigit_ascii : ∀ code < 128,
    isdigit (UInt8.ofNat code) = App.digit (UInt16.ofNat code) := by decide

/-- The separators of instants and times. -/
theorem separator_ascii : ∀ code < 128,
    (UInt8.ofNat code == 0x2d) = (UInt16.ofNat code == 0x2d) ∧
      (UInt8.ofNat code == 0x3a) = (UInt16.ofNat code == 0x3a) ∧
      (UInt8.ofNat code == 0x54) = (UInt16.ofNat code == 0x54) ∧
      (UInt8.ofNat code == 0x5a) = (UInt16.ofNat code == 0x5a) := by decide

/-- So they agree on whole texts of them. -/
theorem all_ascii {firmware : UInt8 → Bool} {app : UInt16 → Bool}
    (same : ∀ code < 128, firmware (UInt8.ofNat code) = app (UInt16.ofNat code))
    (small : ∀ code ∈ codes, code < 128) :
    (codes.map UInt8.ofNat).all firmware = (codes.map UInt16.ofNat).all app := by
  induction codes with
  | nil => rfl
  | cons code codes ih =>
      obtain ⟨ascii, small⟩ := List.forall_mem_cons.mp small
      rw [List.map_cons, List.map_cons, List.all_cons, List.all_cons, same code ascii, ih small]

/-- A class with a bound below 128 has nothing but ASCII. -/
theorem narrow_of_le {b bound : UInt8} (le : b ≤ bound) (ascii : bound.toNat < 128) :
    b.toNat < 128 :=
  Nat.lt_of_le_of_lt (UInt8.le_iff_toNat_le.mp le) ascii

theorem narrow_app_of_le {u bound : UInt16} (le : u ≤ bound) (ascii : bound.toNat < 128) :
    u.toNat < 128 :=
  Nat.lt_of_le_of_lt (UInt16.le_iff_toNat_le.mp le) ascii

theorem narrow_digit {b : UInt8} (h : isdigit b = true) : b.toNat < 128 := by
  simp only [isdigit, Bool.and_eq_true, decide_eq_true_eq] at h
  exact narrow_of_le h.2 (by decide)

theorem narrow_app_digit {u : UInt16} (h : App.digit u = true) : u.toNat < 128 := by
  simp only [App.digit, Bool.and_eq_true, decide_eq_true_eq] at h
  exact narrow_app_of_le h.2 (by decide)

theorem narrow_app_lower {u : UInt16} (h : App.lower u = true) : u.toNat < 128 := by
  simp only [App.lower, Bool.and_eq_true, decide_eq_true_eq] at h
  exact narrow_app_of_le h.2 (by decide)

theorem narrow_app_beq {u sign : UInt16} (h : (u == sign) = true) (ascii : sign.toNat < 128) :
    u.toNat < 128 := by
  rwa [beq_iff_eq.mp h]

/-! ### Alarm ids -/

theorem narrow_isLowerAlnum {b : UInt8} (h : isLowerAlnum b = true) : b.toNat < 128 := by
  simp only [isLowerAlnum, Bool.or_eq_true, Bool.and_eq_true, decide_eq_true_eq] at h
  obtain h | h := h
  · exact narrow_of_le h.2 (by decide)
  · exact narrow_of_le h.2 (by decide)

theorem narrow_isIdTailChar {b : UInt8} (h : isIdTailChar b = true) : b.toNat < 128 := by
  simp only [isIdTailChar, Bool.or_eq_true, beq_iff_eq] at h
  obtain ((h | rfl) | rfl) | rfl := h
  · exact narrow_isLowerAlnum h
  all_goals decide

theorem narrow_alarmIdPattern {units : App.DartString} (valid : App.alarmIdPattern units = true) :
    ∀ u ∈ units, u.toNat < 128 := by
  cases units with
  | nil => cases valid
  | cons first rest =>
      simp only [App.alarmIdPattern, Bool.and_eq_true, Bool.or_eq_true, List.all_eq_true,
        beq_iff_eq] at valid
      obtain ⟨⟨first, -⟩, rest⟩ := valid
      refine List.forall_mem_cons.mpr ⟨first.elim narrow_app_lower narrow_app_digit, ?_⟩
      intro u mem
      obtain (((h | h) | rfl) | rfl) | rfl := rest u mem
      · exact narrow_app_lower h
      · exact narrow_app_digit h
      all_goals decide

/-- Both sides take the same alarm ids. -/
theorem same_alarmId : SameOnText isValidAlarmId App.alarmIdPattern := by
  apply SameOnText.of_ascii
  · intro bytes valid
    cases bytes with
    | nil => cases valid
    | cons front tail =>
        rw [isValidAlarmId] at valid
        split at valid
        · cases valid
        rw [Bool.and_eq_true] at valid
        exact List.forall_mem_cons.mpr ⟨narrow_isLowerAlnum valid.1, fun b mem =>
          narrow_isIdTailChar (List.all_eq_true.mp valid.2 b mem)⟩
  · exact narrow_alarmIdPattern
  · intro codes small
    cases codes with
    | nil => rfl
    | cons front tail =>
        obtain ⟨ascii, small⟩ := List.forall_mem_cons.mp small
        have tails := @all_ascii tail isIdTailChar (fun unit => App.lower unit ||
          App.digit unit || unit == 0x2e || unit == 0x5f || unit == 0x2d) isIdTailChar_ascii small
        rw [List.map_cons, List.map_cons, isValidAlarmId, App.alarmIdPattern,
          isLowerAlnum_ascii front ascii, tails]
        simp only [List.length_cons, List.length_map, kBodyMaximumAlarmIdBytes]
        by_cases long : tail.length + 1 > 64
        · have cut : decide (tail.length ≤ 63) = false := decide_eq_false (by omega)
          rw [if_pos long, cut, Bool.and_false, Bool.false_and]
        · have kept : decide (tail.length ≤ 63) = true := decide_eq_true (by omega)
          rw [if_neg long, kept, Bool.and_true]

/-! ### Instants and times -/

/-- Every unit of a matching text satisfies what all classes have in common. -/
theorem forall_of_matchesEach {classes : List (UInt16 → Bool)} {P : UInt16 → Prop}
    (common : ∀ matching ∈ classes, ∀ u, matching u = true → P u) {units : App.DartString}
    (h : App.matchesEach classes units = true) : ∀ u ∈ units, P u := by
  induction classes generalizing units with
  | nil =>
      cases units with
      | nil => exact List.forall_mem_nil _
      | cons => cases h
  | cons matching classes ih =>
      cases units with
      | nil => cases h
      | cons u rest =>
          rw [App.matchesEach, Bool.and_eq_true] at h
          obtain ⟨here, later⟩ := List.forall_mem_cons.mp common
          exact List.forall_mem_cons.mpr ⟨here u h.1, ih later h.2⟩

/-- A text that matches has a unit for each class. -/
theorem length_of_matchesEach {classes : List (UInt16 → Bool)} {units : App.DartString}
    (h : App.matchesEach classes units = true) : units.length = classes.length := by
  induction classes generalizing units with
  | nil =>
      cases units with
      | nil => rfl
      | cons => cases h
  | cons matching classes ih =>
      cases units with
      | nil => cases h
      | cons u rest =>
          rw [App.matchesEach, Bool.and_eq_true] at h
          rw [List.length_cons, List.length_cons, ih h.2]

/-- A text in the form of an instant is ASCII. -/
theorem narrow_sentAt {units : App.DartString} (h : App.sentAtPattern units = true) :
    ∀ u ∈ units, u.toNat < 128 := by
  refine forall_of_matchesEach ?_ h
  simp only [List.forall_mem_cons, List.not_mem_nil, false_implies, implies_true, and_true]
  have sign {sign : UInt16} (ascii : sign.toNat < 128) (u : UInt16) (h : (u == sign) = true) :
      u.toNat < 128 := narrow_app_beq h ascii
  have digits (u : UInt16) (h : App.digit u = true) : u.toNat < 128 := narrow_app_digit h
  exact ⟨digits, digits, digits, digits, sign (by decide), digits, digits, sign (by decide),
    digits, digits, sign (by decide), digits, digits, sign (by decide), digits, digits,
    sign (by decide), digits, digits, sign (by decide)⟩

/-- The form of an instant is the same on both sides, position by position. -/
theorem shaped_ascii (small : ∀ code ∈ codes, code < 128) :
    isInstantShaped (codes.map UInt8.ofNat) = App.sentAtPattern (codes.map UInt16.ofNat) := by
  by_cases twenty : codes.length = 20
  · match codes, twenty with
    | [a, b, c, d, e, f, g, h, i, j, k, l, m, n, o, p, q, r, s, t], _ =>
      simp only [List.forall_mem_cons, List.not_mem_nil, false_implies, implies_true,
        and_true] at small
      obtain ⟨a', b', c', d', e', f', g', h', i', j', k', l', m', n', o', p', q', r', s', t'⟩ :=
        small
      simp [isInstantShaped, App.sentAtPattern, App.matchesEach, allDigits, substr,
        isdigit_ascii, separator_ascii, *]
      ac_rfl
  · have cut : isInstantShaped (codes.map UInt8.ofNat) = false := by
      unfold isInstantShaped
      rw [List.length_map, beq_eq_false_iff_ne.mpr twenty]
      rfl
    have app_cut : App.sentAtPattern (codes.map UInt16.ofNat) = false := by
      rw [Bool.eq_false_iff]
      intro matched
      have length := length_of_matchesEach matched
      rw [List.length_map] at length
      exact twenty length
    rw [cut, app_cut]

theorem narrow_shaped {bytes : Text} (h : isInstantShaped bytes = true) :
    ∀ b ∈ bytes, b.toNat < 128 := by
  have twenty : bytes.length = 20 := by
    simp only [isInstantShaped, Bool.and_eq_true, beq_iff_eq] at h
    exact h.1.1.1.1.1.1.1.1.1.1.1.1
  match bytes, twenty with
  | [a, b, c, d, e, f, g, h, i, j, k, l, m, n, o, p, q, r, s, t], _ =>
    rename_i shaped
    simp [isInstantShaped, allDigits, substr] at shaped
    obtain ⟨⟨⟨⟨⟨⟨⟨⟨⟨⟨⟨rfl, rfl⟩, rfl⟩, rfl⟩, rfl⟩, rfl⟩, a', b', c', d'⟩, f', g'⟩, i', j'⟩, l', m'⟩,
      o', p'⟩, r', s'⟩ := shaped
    simp only [List.forall_mem_cons, List.not_mem_nil, false_implies, implies_true, and_true]
    exact ⟨narrow_digit a', narrow_digit b', narrow_digit c', narrow_digit d', by decide,
      narrow_digit f', narrow_digit g', by decide, narrow_digit i', narrow_digit j', by decide,
      narrow_digit l', narrow_digit m', by decide, narrow_digit o', narrow_digit p', by decide,
      narrow_digit r', narrow_digit s', by decide⟩

/-- Both sides read the same number. -/
theorem digits_ascii (small : ∀ code ∈ codes, code < 128) :
    digitsToInt (codes.map UInt8.ofNat) = App.parseDigits (codes.map UInt16.ofNat) := by
  rw [digitsToInt, App.parseDigits, List.foldl_map, List.foldl_map]
  apply List.foldl_ext
  intro value code mem
  have ascii := small code mem
  rw [UInt8.toNat_ofNat', UInt16.toNat_ofNat', Nat.mod_eq_of_lt (by omega),
    Nat.mod_eq_of_lt (by omega)]

/-- A field of an instant is the same number on both sides. -/
theorem field_ascii (small : ∀ code ∈ codes, code < 128) (position count : Nat) :
    digitsToInt (substr (codes.map UInt8.ofNat) position count) =
      App.parseDigits (App.substring (codes.map UInt16.ofNat) position (position + count)) := by
  rw [substr, App.substring, Nat.add_sub_cancel_left, ← List.map_drop, ← List.map_take,
    ← List.map_drop, ← List.map_take]
  exact digits_ascii fun code mem => small code (List.mem_of_mem_drop (List.mem_of_mem_take mem))

/-- Both sides take the same instants: the form and the ranges of the fields. -/
theorem same_utcInstant : SameOnText isValidProtocolUtcInstant App.validUtcInstant := by
  apply SameOnText.of_ascii
  · intro bytes valid
    unfold isValidProtocolUtcInstant at valid
    split at valid
    · cases valid
    rename_i shaped
    rw [Bool.not_eq_true', Bool.not_eq_false] at shaped
    exact narrow_shaped shaped
  · intro units valid
    unfold App.validUtcInstant at valid
    split at valid
    · cases valid
    rename_i shaped
    rw [Bool.not_eq_true', Bool.not_eq_false] at shaped
    exact narrow_sentAt shaped
  · intro codes small
    have month (month : Nat) (leap : Bool) :
        daysPerMonth month + (month == 2 && leap).toNat =
          App.daysPerMonth month + if month == 2 && leap then 1 else 0 := by
      cases month == 2 && leap
      · rfl
      · rfl
    unfold isValidProtocolUtcInstant App.validUtcInstant
    simp only [shaped_ascii small, field_ascii small, month]

/-- A text in the form of a local time is ASCII. -/
theorem narrow_localTime {units : App.DartString} (h : App.localTimePattern units = true) :
    ∀ u ∈ units, u.toNat < 128 := by
  have sign {sign : UInt16} (ascii : sign.toNat < 128) (u : UInt16) (h : (u == sign) = true) :
      u.toNat < 128 := narrow_app_beq h ascii
  have range {low high : UInt16} (ascii : high.toNat < 128) (u : UInt16)
      (h : (decide (low ≤ u) && decide (u ≤ high)) = true) : u.toNat < 128 := by
    rw [Bool.and_eq_true, decide_eq_true_eq, decide_eq_true_eq] at h
    exact narrow_app_of_le h.2 ascii
  have tens (u : UInt16) (h : (u == 0x30 || u == 0x31) = true) : u.toNat < 128 := by
    rw [Bool.or_eq_true] at h
    exact h.elim (sign (by decide) u) (sign (by decide) u)
  rw [App.localTimePattern, Bool.or_eq_true] at h
  obtain h | h := h
  · refine forall_of_matchesEach ?_ h
    simp only [List.forall_mem_cons, List.not_mem_nil, false_implies, implies_true, and_true]
    exact ⟨tens, fun u h => narrow_app_digit h, sign (by decide), range (by decide),
      fun u h => narrow_app_digit h⟩
  · refine forall_of_matchesEach ?_ h
    simp only [List.forall_mem_cons, List.not_mem_nil, false_implies, implies_true, and_true]
    exact ⟨sign (by decide), range (by decide), sign (by decide), range (by decide),
      fun u h => narrow_app_digit h⟩

/-- Both sides take the same local times. -/
theorem same_localTime : SameOnText isValidLocalTime App.localTimePattern := by
  apply SameOnText.of_ascii
  · intro bytes valid
    unfold isValidLocalTime at valid
    split at valid
    · rename_i tens ones colon minuteTens minuteOnes
      simp only [List.forall_mem_cons, List.not_mem_nil, false_implies, implies_true, and_true]
      simp [UInt8.lt_iff_toNat_lt, ← UInt8.toNat_inj] at valid
      omega
    · cases valid
  · exact narrow_localTime
  · intro codes small
    by_cases five : codes.length = 5
    · match codes, five with
      | [tens, ones, colon, minuteTens, minuteOnes], _ =>
        simp only [List.forall_mem_cons, List.not_mem_nil, false_implies, implies_true,
          and_true] at small
        obtain ⟨tens_lt, ones_lt, colon_lt, minuteTens_lt, minuteOnes_lt⟩ := small
        rw [Bool.eq_iff_iff]
        simp (disch := omega) [isValidLocalTime, App.localTimePattern, App.matchesEach, App.digit,
          UInt8.lt_iff_toNat_lt, UInt16.le_iff_toNat_le, ← UInt8.toNat_inj, ← UInt16.toNat_inj,
          Nat.mod_eq_of_lt]
        omega
    · have cut : isValidLocalTime (codes.map UInt8.ofNat) = false := by
        unfold isValidLocalTime
        split
        · rename_i found
          have length := congrArg List.length found
          rw [List.length_map] at length
          exact absurd length five
        · rfl
      have app_cut : App.localTimePattern (codes.map UInt16.ofNat) = false := by
        rw [Bool.eq_false_iff, ne_eq, App.localTimePattern, Bool.or_eq_true]
        intro matched
        have length := matched.elim length_of_matchesEach length_of_matchesEach
        rw [List.length_map] at length
        exact five length
      rw [cut, app_cut]

end Ascii

end DawnDock
