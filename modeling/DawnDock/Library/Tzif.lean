import DawnDock.Library.StepFunction
import Mathlib.Algebra.Order.Ring.Int

/-!
The version-2 tables of a TZif record (RFC 8536), each entry by its position in the
record. All fields are big-endian.

A record starts with a version-1 header and data block, whose counts say where the
version-2 header starts. After that header come the transition times, one type index
per transition, and the local time types of six bytes each.
-/

namespace Tzif

abbrev Record := List UInt8

def bigEndian (bytes : List UInt8) : Nat :=
  bytes.foldl (fun value byte => 256 * value + byte.toNat) 0

/-- The unsigned field of `width` bytes at `start`. -/
def unsignedField (record : Record) (start width : Nat) : Nat :=
  bigEndian ((record.drop start).take width)

/-- The two's complement field of `width` bytes at `start`. -/
@[irreducible] def signedField (record : Record) (start width : Nat) : Int :=
  Int.bmod (unsignedField record start width) (2 ^ (8 * width))

def headerLength : Nat := 44

/-- The six counts of a header. -/
structure Counts where
  isut : Nat
  isstd : Nat
  leap : Nat
  time : Nat
  type : Nat
  char : Nat

/-- The counts of the header at `start`, after magic, version and reserved bytes. -/
def countsAt (record : Record) (start : Nat) : Counts where
  isut := unsignedField record (start + 20) 4
  isstd := unsignedField record (start + 24) 4
  leap := unsignedField record (start + 28) 4
  time := unsignedField record (start + 32) 4
  type := unsignedField record (start + 36) 4
  char := unsignedField record (start + 40) 4

/-- The length of the data block behind a header, with times of `timeSize` bytes. -/
def Counts.dataLength (counts : Counts) (timeSize : Nat) : Nat :=
  counts.time * timeSize + counts.time + counts.type * 6 + counts.char +
    counts.leap * (timeSize + 4) + counts.isstd + counts.isut

section Version2

variable (record : Record)

/-- Where the version-2 header starts. -/
def version2Start : Nat := headerLength + (countsAt record 0).dataLength 4

def version2Counts : Counts := countsAt record (version2Start record)

/-- Where the version-2 tables start. -/
def tablesStart : Nat := version2Start record + headerLength

def transitionTime (i : Nat) : Int := signedField record (tablesStart record + 8 * i) 8

def transitionType (i : Nat) : Nat :=
  unsignedField record (tablesStart record + 8 * (version2Counts record).time + i) 1

/-- The UTC offset of a local time type. -/
def utoff (type : Nat) : Int :=
  signedField record (tablesStart record + 9 * (version2Counts record).time + 6 * type) 4

/-- The last transition at or before an instant. -/
def lastTransition (instant : Int) : Option Nat :=
  ((List.range (version2Counts record).time).filter fun i =>
    transitionTime record i ≤ instant).getLast?

/-- The UTC offset in force at an instant; type 0 before the first transition. -/
def offsetAt (instant : Int) : Int :=
  match lastTransition record instant with
  | none => utoff record 0
  | some i => utoff record (transitionType record i)

/-- The tables as a step function. -/
def steps : List (Int × Int) :=
  (List.range (version2Counts record).time).map fun i =>
    (transitionTime record i, utoff record (transitionType record i))

/-- The tables read in order are the offset in force. -/
theorem valueAt_steps (ordered : StepFunction.Ordered (steps record)) (instant : Int) :
    StepFunction.valueAt (utoff record 0) (steps record) instant = offsetAt record instant := by
  have reached_iff (step : Int × Int) : decide (step.1 ≤ instant) = true ↔ step.1 ≤ instant :=
    decide_eq_true_iff
  have last : ((steps record).filter fun step => step.1 ≤ instant).getLast? =
      (lastTransition record instant).map fun i =>
        (transitionTime record i, utoff record (transitionType record i)) := by
    simp only [steps, List.filter_map, List.getLast?_map, lastTransition, Function.comp_def]
  rw [StepFunction.valueAt_eq_getLast reached_iff ordered, last, offsetAt]
  split
  · rename_i none_reached
    rw [none_reached, Option.map_none, Option.elim_none]
  · rename_i reached
    rw [reached, Option.map_some, Option.elim_some]

end Version2

end Tzif
