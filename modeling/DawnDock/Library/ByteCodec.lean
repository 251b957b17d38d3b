import Mathlib.Data.List.Basic
import Mathlib.Data.Nat.Basic
import Mathlib.Tactic.Ring

/-!
Byte strings, little-endian integers and length-prefixed readers.

A writer is a byte string; a reader consumes a byte string from the front and
may fail. `Reads r bytes a` is the one notion the round trips are built from:
whatever follows `bytes`, the reader `r` consumes exactly `bytes` and returns
`a`. It composes along `>>=` (`Reads.bind`) and along counted repetition
(`Reads.times`), so a format's round trip is a walk over its fields.

`Canonical r put` is the other direction: whatever the reader `r` accepts is
exactly what the writer `put` writes for the value it returned.

* `natOf_putNat`, `putNat_natOf`: little-endian coding is the base-256 expansion.
* `reads_natural`, `reads_text`, `reads_boolean`: the primitive fields.
* `of_run_natural`, `of_run_text`, `of_run_boolean`: what they consumed.
-/

namespace ByteCodec

abbrev Bytes := List UInt8

/-! ### Little-endian integers -/

/-- The `width` little-endian bytes of `value`, low byte first. Bits above
`8 * width` are dropped, as a cast to the fixed width drops them. -/
def putNat : Nat → Nat → Bytes
  | 0, _ => []
  | width + 1, value => UInt8.ofNat value :: putNat width (value / 256)

/-- The number whose little-endian bytes are given. -/
def natOf : Bytes → Nat
  | [] => 0
  | byte :: rest => byte.toNat + 256 * natOf rest

@[simp] theorem length_putNat (width value : Nat) : (putNat width value).length = width := by
  induction width generalizing value with
  | zero => rfl
  | succ width ih => simp [putNat, ih]

theorem natOf_putNat (width value : Nat) : natOf (putNat width value) = value % 256 ^ width := by
  induction width generalizing value with
  | zero => simp [putNat, natOf, Nat.mod_one]
  | succ width ih =>
      have byte : (UInt8.ofNat value).toNat = value % 256 := by simp
      rw [putNat, natOf, ih, byte, pow_succ, mul_comm (256 ^ width) 256, Nat.mod_mul]

theorem natOf_putNat_of_lt {width value : Nat} (h : value < 256 ^ width) :
    natOf (putNat width value) = value := by
  rw [natOf_putNat, Nat.mod_eq_of_lt h]

theorem putNat_natOf (bytes : Bytes) : putNat bytes.length (natOf bytes) = bytes := by
  induction bytes with
  | nil => rfl
  | cons byte rest ih =>
      have low : UInt8.ofNat (byte.toNat + 256 * natOf rest) = byte := by
        apply UInt8.toNat_inj.mp
        have := byte.toNat_lt
        simp only [UInt8.toNat_ofNat']
        omega
      have high : (byte.toNat + 256 * natOf rest) / 256 = natOf rest := by
        have := byte.toNat_lt
        omega
      simp only [List.length_cons, putNat, natOf, low, high, ih]

theorem natOf_lt (bytes : Bytes) : natOf bytes < 256 ^ bytes.length := by
  induction bytes with
  | nil => simp [natOf]
  | cons byte rest ih =>
      have := byte.toNat_lt
      simp only [natOf, List.length_cons, pow_succ]
      omega

/-! ### Readers -/

/-- A reader consumes bytes from the front of its input and may fail. -/
abbrev Reader := StateT Bytes Option

/-- Consume exactly `count` bytes. -/
def takeBytes (count : Nat) : Reader Bytes := fun input =>
  if count ≤ input.length then some (input.take count, input.drop count) else none

/-- A little-endian number of `width` bytes. -/
def natural (width : Nat) : Reader Nat := do
  return natOf (← takeBytes width)

/-- A byte string prefixed by its length in `width` bytes. -/
def text (width : Nat) : Reader Bytes := do
  let length ← natural width
  takeBytes length

/-- One byte that must be 0 or 1. -/
def boolean : Reader Bool := do
  let encoded ← natural 1
  guard (encoded ≤ 1)
  return encoded == 1

/-- Read `count` items one after another. -/
def times {α : Type} (item : Reader α) : Nat → Reader (List α)
  | 0 => return []
  | count + 1 => do
      let head ← item
      let tail ← times item count
      return head :: tail

/-- `Reads r bytes a`: on any input that starts with `bytes`, the reader
consumes exactly `bytes` and returns `a`. -/
def Reads {α : Type} (r : Reader α) (bytes : Bytes) (a : α) : Prop :=
  ∀ rest, r.run (bytes ++ rest) = some (a, rest)

section Composition

variable {α β : Type}

theorem Reads.pure (a : α) : Reads (Pure.pure a) [] a := fun _ => rfl

theorem Reads.bind {r : Reader α} {f : α → Reader β} {bytes more : Bytes} {a : α} {b : β}
    (first : Reads r bytes a) (second : Reads (f a) more b) :
    Reads (r >>= f) (bytes ++ more) b := by
  intro rest
  rw [StateT.run_bind, List.append_assoc, first]
  exact second rest

/-- A step that consumes nothing may stand in front of a reader. -/
theorem Reads.then {r : Reader α} {f : α → Reader β} {more : Bytes} {a : α} {b : β}
    (first : Reads r [] a) (second : Reads (f a) more b) : Reads (r >>= f) more b :=
  Reads.bind first second

theorem Reads.map {r : Reader α} {bytes : Bytes} {a : α} (f : α → β) (h : Reads r bytes a) :
    Reads (f <$> r) bytes (f a) := by
  intro rest
  rw [StateT.run_map, h]
  rfl

/-- A check that holds is a reader that consumes nothing. -/
theorem reads_guard {condition : Prop} [Decidable condition] (h : condition) :
    Reads (guard condition) [] () := by
  rw [guard, if_pos h]
  exact .pure _

/-- A check that was passed holds. -/
theorem of_guard_eq_some {condition : Prop} [Decidable condition] {passed : Unit}
    (h : (guard condition : Option Unit) = some passed) : condition := by
  unfold guard at h
  split at h
  · assumption
  · cases h

theorem reads_takeBytes (bytes : Bytes) : Reads (takeBytes bytes.length) bytes bytes := by
  intro rest
  simp [takeBytes, StateT.run]

theorem reads_natural {width value : Nat} (h : value < 256 ^ width) :
    Reads (natural width) (putNat width value) value := by
  have taken := reads_takeBytes (putNat width value)
  rw [length_putNat] at taken
  have := taken.map natOf
  rwa [natOf_putNat_of_lt h] at this

theorem reads_text {width : Nat} {value : Bytes} (h : value.length < 256 ^ width) :
    Reads (text width) (putNat width value.length ++ value) value :=
  (reads_natural h).bind (reads_takeBytes value)

theorem reads_boolean (value : Bool) : Reads boolean (putNat 1 value.toNat) value := by
  intro rest
  cases value <;> rfl

/-- Counted repetition reads the concatenation of the items a writer produced. -/
theorem Reads.times {item : Reader α} {put : α → Option Bytes} {values : List α}
    {pieces : List Bytes} (written : values.mapM put = some pieces)
    (each : ∀ a ∈ values, ∀ piece, put a = some piece → Reads item piece a) :
    Reads (ByteCodec.times item values.length) pieces.flatten values := by
  induction values generalizing pieces with
  | nil =>
      cases written
      exact .pure _
  | cons a values ih =>
      simp only [List.mapM_cons, Option.bind_eq_bind, Option.bind_eq_some_iff] at written
      obtain ⟨piece, first, rest, later, last⟩ := written
      cases last
      have tail := ih later fun b hb => each b (List.mem_cons_of_mem _ hb)
      have whole : Reads (ByteCodec.times item values.length >>= fun rest => Pure.pure (a :: rest))
          (rest.flatten ++ []) (a :: values) := tail.bind (.pure _)
      rw [List.append_nil] at whole
      exact (each a List.mem_cons_self piece first).bind whole

/-- A writer that succeeds within `bound` bytes on every item succeeds on the list. -/
theorem mapM_writes {put : α → Option Bytes} {values : List α} {bound : Nat}
    (each : ∀ a ∈ values, ∃ piece, put a = some piece ∧ piece.length ≤ bound) :
    ∃ pieces, values.mapM put = some pieces ∧ pieces.flatten.length ≤ bound * values.length := by
  induction values with
  | nil => exact ⟨[], rfl, by simp⟩
  | cons a values ih =>
      obtain ⟨piece, first, small⟩ := each a List.mem_cons_self
      obtain ⟨rest, later, fits⟩ := ih fun b hb => each b (List.mem_cons_of_mem _ hb)
      refine ⟨piece :: rest, by simp [List.mapM_cons, first, later], ?_⟩
      simp only [List.flatten_cons, List.length_append, List.length_cons, Nat.mul_add, Nat.mul_one]
      omega

end Composition

/-! ### Canonical readers -/

/-- Whatever the reader accepts from the front of its input is what the writer
writes for the value it returned. -/
def Canonical {α : Type} (r : Reader α) (put : α → Option Bytes) : Prop :=
  ∀ input a rest, r.run input = some (a, rest) → ∃ bytes, put a = some bytes ∧ input = bytes ++ rest

section Inversion

variable {α β : Type}

theorem run_bind_eq_some {r : Reader α} {f : α → Reader β} {input rest : Bytes} {b : β} :
    (r >>= f).run input = some (b, rest) ↔
      ∃ a middle, r.run input = some (a, middle) ∧ (f a).run middle = some (b, rest) := by
  rw [StateT.run_bind, Option.bind_eq_bind, Option.bind_eq_some_iff]
  constructor
  · rintro ⟨⟨a, middle⟩, first, second⟩
    exact ⟨a, middle, first, second⟩
  · rintro ⟨a, middle, first, second⟩
    exact ⟨(a, middle), first, second⟩

theorem run_pure_eq_some {input rest : Bytes} {a b : α} :
    (Pure.pure a : Reader α).run input = some (b, rest) ↔ a = b ∧ input = rest := by
  rw [StateT.run_pure, Option.pure_def, Option.some.injEq, Prod.mk.injEq]

/-- A check inside a reader consumes nothing. -/
theorem run_guard_eq_some {condition : Prop} [Decidable condition] {passed : Unit}
    {input rest : Bytes} (h : (guard condition : Reader Unit).run input = some (passed, rest)) :
    condition ∧ input = rest := by
  unfold guard at h
  split at h
  · rename_i holds
    exact ⟨holds, (run_pure_eq_some.mp h).2⟩
  · cases h

theorem of_run_takeBytes {count : Nat} {input rest bytes : Bytes}
    (h : (takeBytes count).run input = some (bytes, rest)) :
    bytes.length = count ∧ input = bytes ++ rest := by
  simp only [takeBytes, StateT.run] at h
  split at h
  · rename_i enough
    cases h
    exact ⟨List.length_take_of_le enough, (List.take_append_drop ..).symm⟩
  · cases h

theorem of_run_natural {width value : Nat} {input rest : Bytes}
    (h : (natural width).run input = some (value, rest)) :
    value < 256 ^ width ∧ input = putNat width value ++ rest := by
  obtain ⟨bytes, middle, taken, last⟩ := run_bind_eq_some.mp h
  obtain ⟨rfl, rfl⟩ := run_pure_eq_some.mp last
  obtain ⟨rfl, rfl⟩ := of_run_takeBytes taken
  exact ⟨natOf_lt bytes, by rw [putNat_natOf]⟩

theorem of_run_text {width : Nat} {value input rest : Bytes}
    (h : (text width).run input = some (value, rest)) :
    value.length < 256 ^ width ∧ input = putNat width value.length ++ value ++ rest := by
  obtain ⟨length, middle, counted, taken⟩ := run_bind_eq_some.mp h
  obtain ⟨small, rfl⟩ := of_run_natural counted
  obtain ⟨rfl, rfl⟩ := of_run_takeBytes taken
  exact ⟨small, (List.append_assoc ..).symm⟩

theorem of_run_boolean {value : Bool} {input rest : Bytes}
    (h : boolean.run input = some (value, rest)) : input = putNat 1 value.toNat ++ rest := by
  obtain ⟨encoded, middle, read, h⟩ := run_bind_eq_some.mp h
  obtain ⟨_, middle', checked, last⟩ := run_bind_eq_some.mp h
  obtain ⟨small, rfl⟩ := run_guard_eq_some checked
  obtain ⟨rfl, rfl⟩ := run_pure_eq_some.mp last
  obtain ⟨-, rfl⟩ := of_run_natural read
  obtain rfl | rfl : encoded = 0 ∨ encoded = 1 := by omega
  all_goals rfl

/-- Counted repetition of a canonical reader is canonical, and returns as many
items as it was asked for. -/
theorem Canonical.times {item : Reader α} {put : α → Option Bytes} (each : Canonical item put)
    {count : Nat} {values : List α} {input rest : Bytes}
    (h : (ByteCodec.times item count).run input = some (values, rest)) :
    values.length = count ∧
      ∃ pieces, values.mapM put = some pieces ∧ input = pieces.flatten ++ rest := by
  induction count generalizing values input rest with
  | zero =>
      obtain ⟨rfl, rfl⟩ := run_pure_eq_some.mp h
      exact ⟨rfl, [], rfl, rfl⟩
  | succ count ih =>
      obtain ⟨head, middle, first, h⟩ := run_bind_eq_some.mp h
      obtain ⟨tail, middle', later, last⟩ := run_bind_eq_some.mp h
      obtain ⟨rfl, rfl⟩ := run_pure_eq_some.mp last
      obtain ⟨piece, written, rfl⟩ := each _ _ _ first
      obtain ⟨rfl, pieces, tailWritten, rfl⟩ := ih later
      refine ⟨rfl, piece :: pieces, by simp [List.mapM_cons, written, tailWritten], ?_⟩
      rw [List.flatten_cons, List.append_assoc]

end Inversion

end ByteCodec
