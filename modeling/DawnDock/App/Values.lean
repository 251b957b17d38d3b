import DawnDock.Protocol.Contract

/-!
What the domain classes of the app share: the errors they throw, the bounds on their
texts, and instants.
-/

namespace DawnDock.App

/-- What a call throws. -/
inductive DartError where
  | stateError (message : String)
  | argumentError (message : String)
  | argumentValue (name message : String)
  | formatException (message : String)
  | rangeError
  | typeError
  | exchangeReject (code detail : String)
deriving DecidableEq, Repr

/-- `value.runes` in UTF-8, and not empty. -/
def requireBounded (value : DartString) (maximum : Nat) (field : String) : Except DartError Unit :=
  if value.isEmpty then .error (.argumentError (field ++ " must not be empty"))
  else if utf8Length value > maximum then
    .error (.argumentError (field ++ " exceeds " ++ toString maximum ++ " UTF-8 bytes"))
  else .ok ()

/-- A value that passes `requireBounded`. -/
def IsBounded (value : DartString) (maximum : Nat) : Prop :=
  value ≠ [] ∧ utf8Length value ≤ maximum

theorem requireBounded_eq_ok {value : DartString} {maximum : Nat} {field : String} :
    requireBounded value maximum field = .ok () ↔ IsBounded value maximum := by
  rw [requireBounded, IsBounded]
  split
  · rename_i empty
    exact iff_of_false nofun fun h => h.1 (List.isEmpty_iff.mp empty)
  rename_i nonempty
  split
  · rename_i long
    exact iff_of_false nofun fun h => Nat.not_lt.mpr h.2 long
  · rename_i short
    refine iff_of_true rfl ⟨?_, Nat.not_lt.mp short⟩
    intro empty
    exact nonempty (List.isEmpty_iff.mpr empty)

/-! ### Instants -/

/-- 100,000,000 days on either side of the epoch. -/
def kMaxMicroseconds : Int := 8640000000000000000

structure DateTime where
  microsecondsSinceEpoch : Int
  isUtc : Bool
  lower : -kMaxMicroseconds ≤ microsecondsSinceEpoch
  upper : microsecondsSinceEpoch ≤ kMaxMicroseconds
deriving DecidableEq

namespace DateTime

def toUtc (instant : DateTime) : DateTime := { instant with isUtc := true }

def isBefore (instant other : DateTime) : Bool :=
  instant.microsecondsSinceEpoch < other.microsecondsSinceEpoch

def addSeconds (instant : DateTime) (seconds : Int) : Except DartError DateTime :=
  let value := instant.microsecondsSinceEpoch + seconds * 1000000
  if lower : -kMaxMicroseconds ≤ value then
    if upper : value ≤ kMaxMicroseconds then
      .ok { microsecondsSinceEpoch := value, isUtc := instant.isUtc, lower, upper }
    else .error .rangeError
  else .error .rangeError

@[simp] theorem toUtc_microseconds (instant : DateTime) :
    instant.toUtc.microsecondsSinceEpoch = instant.microsecondsSinceEpoch := rfl

theorem addSeconds_ok {instant later : DateTime} {seconds : Int}
    (h : instant.addSeconds seconds = .ok later) :
    later.microsecondsSinceEpoch = instant.microsecondsSinceEpoch + seconds * 1000000 := by
  unfold addSeconds at h
  dsimp only at h
  split at h
  · split at h
    · cases h
      rfl
    · cases h
  · cases h

end DateTime

end DawnDock.App
