import DawnDock.App.Values
import Mathlib.Data.List.Pairwise

/-!
The pairing ceremony (`pairing.dart`) over any run of calls (`ceremony_safe`).

`step` is one call, with the reading of the clock it would take; a call that throws may
have closed the ceremony. What a call can do is said once, in `step_attempt`,
`step_record` and the `Advances` of `advances_step`; runs are folded over these.
-/

namespace DawnDock.App

def kMaxPairingWindowSeconds : Int := 120
def kMaxPairingAttempts : Nat := 5
def kMaxCandidateIdentityBytes : Nat := 64
def kMaxShortCodeBytes : Nat := 16
def kMaxFingerprintBytes : Nat := 64
def kMaxSecureStorageReferenceBytes : Nat := 128

inductive CandidateSource where
  | manual | discovered
deriving DecidableEq, Repr

structure PairingCandidate where
  identity : DartString
  displayName : DartString
  source : CandidateSource
  identity_bounded : IsBounded identity kMaxCandidateIdentityBytes
  displayName_bounded : IsBounded displayName kMaxCandidateIdentityBytes

inductive PairingClosureReason where
  | timedOut | attemptsExhausted | cancelled | confirmed
deriving DecidableEq, Repr

def PairingClosureReason.name : PairingClosureReason → String
  | .timedOut => "timedOut"
  | .attemptsExhausted => "attemptsExhausted"
  | .cancelled => "cancelled"
  | .confirmed => "confirmed"

structure PairingAttemptResult where
  accepted : Bool
  attemptNumber : Nat
  remainingAttempts : Nat
  closureReason : Option PairingClosureReason
deriving DecidableEq, Repr

structure PairedDeviceRecord where
  identity : DartString
  displayName : DartString
  secureStorageReference : DartString
  pairedAtUtc : DateTime
  identity_bounded : IsBounded identity kMaxCandidateIdentityBytes
  displayName_bounded : IsBounded displayName kMaxCandidateIdentityBytes
  reference_bounded : IsBounded secureStorageReference kMaxSecureStorageReferenceBytes

/-- What a ceremony is constructed with. -/
structure CeremonyTerms where
  candidate : PairingCandidate
  expectedShortCode : DartString
  expectedFingerprint : DartString
  windowStart : DateTime
  windowSeconds : Int
  shortCode_bounded : IsBounded expectedShortCode kMaxShortCodeBytes
  fingerprint_bounded : IsBounded expectedFingerprint kMaxFingerprintBytes
  windowSeconds_pos : 0 < windowSeconds
  windowSeconds_le : windowSeconds ≤ kMaxPairingWindowSeconds

def CeremonyTerms.windowDeadline (terms : CeremonyTerms) : Except DartError DateTime :=
  terms.windowStart.toUtc.addSeconds terms.windowSeconds

def CeremonyTerms.hasStartedAt (terms : CeremonyTerms) (now : DateTime) : Bool :=
  !now.isBefore terms.windowStart.toUtc

def CeremonyTerms.isExpiredAt (terms : CeremonyTerms) (now : DateTime) : Except DartError Bool := do
  let deadline ← terms.windowDeadline
  return !now.isBefore deadline

structure PairingCeremony where
  terms : CeremonyTerms
  attempts : Nat
  closureReason : Option PairingClosureReason
  recordCompleted : Bool

namespace PairingCeremony

/-- A ceremony as constructed. -/
def create (terms : CeremonyTerms) : PairingCeremony :=
  { terms, attempts := 0, closureReason := none, recordCompleted := false }

/-- What a call returns or throws, and the ceremony it leaves. -/
abbrev Result (α : Type) := Except DartError α × PairingCeremony

def checkExpiry (ceremony : PairingCeremony) (now : DateTime) : Result Bool :=
  if ceremony.closureReason.isSome then (.ok false, ceremony)
  else
    match ceremony.terms.isExpiredAt now.toUtc with
    | .error error => (.error error, ceremony)
    | .ok true => (.ok true, { ceremony with closureReason := some .timedOut })
    | .ok false => (.ok false, ceremony)

def cancel (ceremony : PairingCeremony) : Result Unit :=
  if ceremony.closureReason.isSome then (.ok (), ceremony)
  else (.ok (), { ceremony with closureReason := some .cancelled })

/-- The attempt is counted, and then compared. -/
def countAttempt (ceremony : PairingCeremony) (shortCode fingerprint : DartString) :
    Result PairingAttemptResult :=
  let attempts := ceremony.attempts + 1
  let matched := shortCode == ceremony.terms.expectedShortCode &&
    fingerprint == ceremony.terms.expectedFingerprint
  if matched then
    (.ok { accepted := true
           attemptNumber := attempts
           remainingAttempts := 0
           closureReason := some .confirmed },
      { ceremony with attempts, closureReason := some .confirmed })
  else if kMaxPairingAttempts ≤ attempts then
    (.ok { accepted := false
           attemptNumber := attempts
           remainingAttempts := 0
           closureReason := some .attemptsExhausted },
      { ceremony with attempts, closureReason := some .attemptsExhausted })
  else
    (.ok { accepted := false
           attemptNumber := attempts
           remainingAttempts := kMaxPairingAttempts - attempts
           closureReason := none },
      { ceremony with attempts })

def attemptConfirmation (ceremony : PairingCeremony) (shortCode fingerprint : DartString)
    (now : DateTime) : Result PairingAttemptResult :=
  match ceremony.closureReason with
  | some reason =>
    (.error (.stateError ("ceremony already closed (" ++ reason.name ++
      "); no further attempts are accepted")), ceremony)
  | none =>
    if !ceremony.terms.hasStartedAt now.toUtc then
      (.error (.stateError "pairing window has not opened yet; confirmation is not accepted"),
        ceremony)
    else
      match ceremony.terms.isExpiredAt now.toUtc with
      | .error error => (.error error, ceremony)
      | .ok true =>
        (.error (.stateError "pairing window elapsed before this attempt was made"),
          { ceremony with closureReason := some .timedOut })
      | .ok false => ceremony.countAttempt shortCode fingerprint

def completeWithReference (ceremony : PairingCeremony) (secureStorageReference : DartString)
    (pairedAtUtc : Option DateTime) (now : DateTime) : Result PairedDeviceRecord :=
  if ceremony.closureReason ≠ some .confirmed then
    (.error (.stateError ("ceremony has not been confirmed (state: " ++
      (ceremony.closureReason.map PairingClosureReason.name).getD "open" ++ ")")), ceremony)
  else if ceremony.recordCompleted then
    (.error (.stateError "paired record already completed for this ceremony"), ceremony)
  else
    match bounded : requireBounded secureStorageReference kMaxSecureStorageReferenceBytes
      "secureStorageReference" with
    | .error error => (.error error, ceremony)
    | .ok () =>
      (.ok { identity := ceremony.terms.candidate.identity
             displayName := ceremony.terms.candidate.displayName
             secureStorageReference
             pairedAtUtc := (pairedAtUtc.getD now).toUtc
             identity_bounded := ceremony.terms.candidate.identity_bounded
             displayName_bounded := ceremony.terms.candidate.displayName_bounded
             reference_bounded := requireBounded_eq_ok.mp bounded },
        { ceremony with recordCompleted := true })

/-! ### Runs -/

/-- A call, with its arguments. -/
inductive Call where
  | attemptConfirmation (shortCode fingerprint : DartString)
  | checkExpiry
  | cancel
  | completeWithReference (secureStorageReference : DartString) (pairedAtUtc : Option DateTime)

inductive Outcome where
  | attempt (result : PairingAttemptResult)
  | expiry (closed : Bool)
  | cancelled
  | record (record : PairedDeviceRecord)
  | threw (error : DartError)

def Result.outcome {α : Type} (returned : α → Outcome) : Result α → Outcome × PairingCeremony
  | (.ok value, ceremony) => (returned value, ceremony)
  | (.error error, ceremony) => (.threw error, ceremony)

/-- One call, at the reading of the clock. -/
def step (ceremony : PairingCeremony) (call : Call) (now : DateTime) : Outcome × PairingCeremony :=
  match call with
  | .attemptConfirmation shortCode fingerprint =>
    Result.outcome .attempt (ceremony.attemptConfirmation shortCode fingerprint now)
  | .checkExpiry => Result.outcome .expiry (ceremony.checkExpiry now)
  | .cancel => Result.outcome (fun _ => .cancelled) ceremony.cancel
  | .completeWithReference reference pairedAtUtc =>
    Result.outcome .record (ceremony.completeWithReference reference pairedAtUtc now)

structure Event where
  before : PairingCeremony
  call : Call
  now : DateTime
  outcome : Outcome
  after : PairingCeremony

/-- The calls of a run in turn. -/
def trace : PairingCeremony → List (Call × DateTime) → List Event
  | _, [] => []
  | ceremony, (call, now) :: rest =>
    let (outcome, after) := ceremony.step call now
    { before := ceremony, call, now, outcome, after } :: trace after rest

/-! ### One call -/

section Step

variable {ceremony after : PairingCeremony} {call : Call} {now : DateTime} {outcome : Outcome}

/-- At most five attempts are counted, and five close the ceremony. -/
structure Counted (ceremony : PairingCeremony) : Prop where
  attempts : ceremony.attempts ≤ kMaxPairingAttempts
  room : ceremony.closureReason = none → ceremony.attempts < kMaxPairingAttempts

/-- The instant lies in the window of the ceremony. -/
def InWindow (terms : CeremonyTerms) (now : DateTime) : Prop :=
  terms.windowStart.microsecondsSinceEpoch ≤ now.microsecondsSinceEpoch ∧
    now.microsecondsSinceEpoch <
      terms.windowStart.microsecondsSinceEpoch + terms.windowSeconds * 1000000

/-- What each call keeps. -/
structure Advances (before after : PairingCeremony) : Prop where
  terms : after.terms = before.terms
  closed : ∀ reason, before.closureReason = some reason → after.closureReason = some reason
  recorded : before.recordCompleted = true → after.recordCompleted = true
  counted : Counted before → Counted after

theorem Advances.refl (ceremony : PairingCeremony) : Advances ceremony ceremony :=
  ⟨rfl, fun _ h => h, id, id⟩

/-- An open ceremony is closed. -/
theorem advances_close {reason : PairingClosureReason} (opened : ceremony.closureReason = none) :
    Advances ceremony { ceremony with closureReason := some reason } := by
  refine ⟨rfl, ?_, id, ?_⟩
  · intro old h
    rw [opened] at h
    cases h
  · intro counted
    exact ⟨counted.attempts, nofun⟩

theorem inWindow_of_checks (started : ceremony.terms.hasStartedAt now.toUtc = true)
    (valid : ceremony.terms.isExpiredAt now.toUtc = .ok false) :
    InWindow ceremony.terms now := by
  rw [CeremonyTerms.hasStartedAt, Bool.not_eq_true', DateTime.isBefore, decide_eq_false_iff_not,
    not_lt] at started
  rw [CeremonyTerms.isExpiredAt] at valid
  cases deadline : ceremony.terms.windowDeadline with
  | error error =>
      rw [deadline] at valid
      cases valid
  | ok later =>
      rw [deadline] at valid
      have before : (!now.toUtc.isBefore later) = false := Except.ok.inj valid
      rw [Bool.not_eq_false', DateTime.isBefore, decide_eq_true_eq,
        DateTime.addSeconds_ok deadline] at before
      exact ⟨started, before⟩

theorem advances_countAttempt (shortCode fingerprint : DartString)
    (opened : ceremony.closureReason = none) :
    Advances ceremony (ceremony.countAttempt shortCode fingerprint).2 := by
  have keeps : ∀ reason, ceremony.closureReason = some reason → False := by
    intro reason h
    rw [opened] at h
    cases h
  unfold countAttempt
  dsimp only
  split
  · refine ⟨rfl, fun reason h => (keeps reason h).elim, id, ?_⟩
    intro counted
    exact ⟨counted.room opened, nofun⟩
  split
  · refine ⟨rfl, fun reason h => (keeps reason h).elim, id, ?_⟩
    intro counted
    exact ⟨counted.room opened, nofun⟩
  · rename_i more
    refine ⟨rfl, fun reason h => (keeps reason h).elim, id, ?_⟩
    intro counted
    exact ⟨counted.room opened, fun _ => Nat.not_le.mp more⟩

theorem advances_attemptConfirmation (shortCode fingerprint : DartString) :
    Advances ceremony (ceremony.attemptConfirmation shortCode fingerprint now).2 := by
  unfold attemptConfirmation
  split
  · exact .refl ceremony
  rename_i opened
  split
  · exact .refl ceremony
  split
  · exact .refl ceremony
  · exact advances_close opened
  · exact advances_countAttempt shortCode fingerprint opened

theorem advances_checkExpiry : Advances ceremony (ceremony.checkExpiry now).2 := by
  unfold checkExpiry
  split
  · exact .refl ceremony
  rename_i opened
  rw [Bool.not_eq_true, Option.isSome_eq_false_iff, Option.isNone_iff_eq_none] at opened
  split
  · exact .refl ceremony
  · exact advances_close opened
  · exact .refl ceremony

theorem advances_cancel : Advances ceremony ceremony.cancel.2 := by
  unfold cancel
  split
  · exact .refl ceremony
  · rename_i opened
    rw [Bool.not_eq_true, Option.isSome_eq_false_iff, Option.isNone_iff_eq_none] at opened
    exact advances_close opened

theorem advances_completeWithReference (reference : DartString) (pairedAtUtc : Option DateTime) :
    Advances ceremony (ceremony.completeWithReference reference pairedAtUtc now).2 := by
  unfold completeWithReference
  split
  · exact .refl ceremony
  split
  · exact .refl ceremony
  split
  · exact .refl ceremony
  · exact ⟨rfl, fun _ h => h, fun _ => rfl, fun counted => ⟨counted.attempts, counted.room⟩⟩

theorem outcome_snd {α : Type} {returned : α → Outcome} (result : Result α) :
    (Result.outcome returned result).2 = result.2 := by
  obtain ⟨value | error, ceremony⟩ := result
  · rfl
  · rfl

theorem outcome_fst {α : Type} (returned : α → Outcome) (result : Result α) :
    (∃ value, result.1 = .ok value ∧ (Result.outcome returned result).1 = returned value) ∨
      ∃ error, (Result.outcome returned result).1 = .threw error := by
  obtain ⟨value | error, ceremony⟩ := result
  · exact .inr ⟨value, rfl⟩
  · exact .inl ⟨error, rfl, rfl⟩

theorem advances_step (ceremony : PairingCeremony) (call : Call) (now : DateTime) :
    Advances ceremony (ceremony.step call now).2 := by
  cases call with
  | attemptConfirmation shortCode fingerprint =>
      rw [step, outcome_snd]
      exact advances_attemptConfirmation shortCode fingerprint
  | checkExpiry =>
      rw [step, outcome_snd]
      exact advances_checkExpiry
  | cancel =>
      rw [step, outcome_snd]
      exact advances_cancel
  | completeWithReference reference pairedAtUtc =>
      rw [step, outcome_snd]
      exact advances_completeWithReference reference pairedAtUtc

/-- An attempt is accepted in the open window, if both texts match. -/
theorem attempt_accepted {shortCode fingerprint : DartString} {result : PairingAttemptResult}
    (returned : (ceremony.attemptConfirmation shortCode fingerprint now).1 = .ok result)
    (accepted : result.accepted = true) :
    shortCode = ceremony.terms.expectedShortCode ∧
      fingerprint = ceremony.terms.expectedFingerprint ∧
      ceremony.closureReason = none ∧ InWindow ceremony.terms now := by
  unfold attemptConfirmation at returned
  split at returned
  · cases returned
  rename_i opened
  split at returned
  · cases returned
  rename_i started
  rw [Bool.not_eq_true', Bool.not_eq_false] at started
  split at returned
  · cases returned
  · cases returned
  rename_i valid
  unfold countAttempt at returned
  dsimp only at returned
  split at returned
  · rename_i matched
    obtain ⟨code, print⟩ := Bool.and_eq_true_iff.mp matched
    exact ⟨beq_iff_eq.mp code, beq_iff_eq.mp print, opened, inWindow_of_checks started valid⟩
  split at returned
  · cases returned
    cases accepted
  · cases returned
    cases accepted

/-- A record is returned by a confirmed ceremony that has returned none. -/
theorem record_returned {reference : DartString} {pairedAtUtc : Option DateTime}
    {record : PairedDeviceRecord}
    (returned : (ceremony.completeWithReference reference pairedAtUtc now).1 = .ok record) :
    ceremony.closureReason = some .confirmed ∧ ceremony.recordCompleted = false ∧
      (ceremony.completeWithReference reference pairedAtUtc now).2.recordCompleted = true := by
  unfold completeWithReference at returned ⊢
  split at returned
  · cases returned
  rename_i confirmed
  split at returned
  · cases returned
  rename_i fresh
  rw [if_neg confirmed, if_neg fresh]
  split at returned
  · cases returned
  · rename_i bounded
    exact ⟨not_not.mp confirmed, Bool.eq_false_iff.mpr fresh, rfl⟩

end Step

/-! ### Runs -/

def Outcome.isRecord : Outcome → Bool
  | .record _ => true
  | _ => false

/-- The attempt that the event accepts, if it does. -/
def Accepts (event : Event) : Prop :=
  ∃ result, event.outcome = .attempt result ∧ result.accepted = true

/-- What holds of each event of a run. -/
structure Sound (terms : CeremonyTerms) (event : Event) : Prop where
  attempts : event.after.attempts ≤ kMaxPairingAttempts
  accepted : Accepts event → event.before.closureReason = none ∧ InWindow terms event.now ∧
    event.call = .attemptConfirmation terms.expectedShortCode terms.expectedFingerprint
  record : event.outcome.isRecord = true → event.before.closureReason = some .confirmed

section Runs

variable {terms : CeremonyTerms} {ceremony : PairingCeremony}

/-- A call that returns neither, and does not throw one, has no outcome of the kind. -/
theorem outcome_not {α : Type} {returned : α → Outcome} {result : Result α} {p : Outcome → Prop}
    (returns : ∀ value, ¬ p (returned value)) (throws : ∀ error, ¬ p (.threw error)) :
    ¬ p (Result.outcome returned result).1 := by
  obtain ⟨value, -, outcome⟩ | ⟨error, outcome⟩ := outcome_fst returned result
  · rw [outcome]
    exact returns value
  · rw [outcome]
    exact throws error

theorem accepts_step {call : Call} {now : DateTime} {result : PairingAttemptResult}
    (returned : (ceremony.step call now).1 = .attempt result) (accepted : result.accepted = true) :
    ceremony.closureReason = none ∧ InWindow ceremony.terms now ∧
      call = .attemptConfirmation ceremony.terms.expectedShortCode
        ceremony.terms.expectedFingerprint := by
  cases call with
  | attemptConfirmation shortCode fingerprint =>
      obtain ⟨value, attempted, outcome⟩ | ⟨error, outcome⟩ :=
        outcome_fst .attempt (ceremony.attemptConfirmation shortCode fingerprint now)
      · cases outcome.symm.trans returned
        obtain ⟨rfl, rfl, opened, window⟩ := attempt_accepted attempted accepted
        exact ⟨opened, window, rfl⟩
      · cases outcome.symm.trans returned
  | checkExpiry =>
      rw [step] at returned
      apply absurd returned
      apply @outcome_not _ _ _ (· = .attempt result)
      · intro _ same
        cases same
      · intro _ same
        cases same
  | cancel =>
      rw [step] at returned
      apply absurd returned
      apply @outcome_not _ _ _ (· = .attempt result)
      · intro _ same
        cases same
      · intro _ same
        cases same
  | completeWithReference reference pairedAtUtc =>
      rw [step] at returned
      apply absurd returned
      apply @outcome_not _ _ _ (· = .attempt result)
      · intro _ same
        cases same
      · intro _ same
        cases same

theorem record_step {call : Call} {now : DateTime}
    (returned : (ceremony.step call now).1.isRecord = true) :
    ceremony.closureReason = some .confirmed ∧ ceremony.recordCompleted = false ∧
      (ceremony.step call now).2.recordCompleted = true := by
  cases call with
  | attemptConfirmation shortCode fingerprint =>
      rw [step] at returned
      apply absurd returned
      apply @outcome_not _ _ _ (·.isRecord = true)
      · intro _ same
        cases same
      · intro _ same
        cases same
  | checkExpiry =>
      rw [step] at returned
      apply absurd returned
      apply @outcome_not _ _ _ (·.isRecord = true)
      · intro _ same
        cases same
      · intro _ same
        cases same
  | cancel =>
      rw [step] at returned
      apply absurd returned
      apply @outcome_not _ _ _ (·.isRecord = true)
      · intro _ same
        cases same
      · intro _ same
        cases same
  | completeWithReference reference pairedAtUtc =>
      obtain ⟨value, completed, -⟩ | ⟨error, outcome⟩ :=
        outcome_fst .record (ceremony.completeWithReference reference pairedAtUtc now)
      · rw [step, outcome_snd]
        exact record_returned completed
      · rw [step, outcome] at returned
        cases returned

/-- The event of a call. -/
def event (ceremony : PairingCeremony) (call : Call) (now : DateTime) : Event :=
  { before := ceremony, call, now, outcome := (ceremony.step call now).1,
    after := (ceremony.step call now).2 }

theorem trace_cons (call : Call) (now : DateTime) (rest : List (Call × DateTime)) :
    trace ceremony ((call, now) :: rest) =
      ceremony.event call now :: trace (ceremony.step call now).2 rest := rfl

theorem sound_event (same : ceremony.terms = terms) (counted : Counted ceremony) (call : Call)
    (now : DateTime) : Sound terms (ceremony.event call now) := by
  subst same
  constructor
  · exact ((advances_step ceremony call now).counted counted).attempts
  · rintro ⟨result, returned, accepted⟩
    exact accepts_step returned accepted
  · intro returned
    exact (record_step returned).1

theorem sound_trace (same : ceremony.terms = terms) (counted : Counted ceremony)
    (calls : List (Call × DateTime)) : ∀ event ∈ trace ceremony calls, Sound terms event := by
  induction calls generalizing ceremony with
  | nil => exact List.forall_mem_nil _
  | cons first calls ih =>
      obtain ⟨call, now⟩ := first
      have advances := advances_step ceremony call now
      rw [trace_cons, List.forall_mem_cons]
      exact ⟨sound_event same counted call now, ih (advances.terms.trans same)
        (advances.counted counted)⟩

/-- A closed ceremony stays closed, for the same reason. -/
theorem closed_trace {reason : PairingClosureReason}
    (closed : ceremony.closureReason = some reason) (calls : List (Call × DateTime)) :
    ∀ event ∈ trace ceremony calls, event.after.closureReason = some reason := by
  induction calls generalizing ceremony with
  | nil => exact List.forall_mem_nil _
  | cons first calls ih =>
      obtain ⟨call, now⟩ := first
      have still := (advances_step ceremony call now).closed reason closed
      rw [trace_cons, List.forall_mem_cons]
      exact ⟨still, ih still⟩

/-- Later states of a run have the reason of the earlier ones. -/
def KeepsReason (event later : Event) : Prop :=
  ∀ reason, event.after.closureReason = some reason → later.after.closureReason = some reason

theorem pairwise_keepsReason (calls : List (Call × DateTime)) :
    (trace ceremony calls).Pairwise KeepsReason := by
  induction calls generalizing ceremony with
  | nil => exact .nil
  | cons first calls ih =>
      obtain ⟨call, now⟩ := first
      rw [trace_cons, List.pairwise_cons]
      refine ⟨?_, ih⟩
      intro later mem reason closed
      exact closed_trace closed calls later mem

theorem no_record_trace (completed : ceremony.recordCompleted = true)
    (calls : List (Call × DateTime)) :
    (trace ceremony calls).countP (·.outcome.isRecord) = 0 := by
  induction calls generalizing ceremony with
  | nil => rfl
  | cons first calls ih =>
      obtain ⟨call, now⟩ := first
      have still := (advances_step ceremony call now).recorded completed
      rw [trace_cons, List.countP_cons_of_neg, ih still]
      intro returned
      rw [(record_step returned).2.1] at completed
      cases completed

theorem records_trace (calls : List (Call × DateTime)) :
    (trace ceremony calls).countP (·.outcome.isRecord) ≤ 1 := by
  induction calls generalizing ceremony with
  | nil => exact Nat.zero_le 1
  | cons first calls ih =>
      obtain ⟨call, now⟩ := first
      rw [trace_cons, List.countP_cons]
      split
      · rename_i returned
        rw [no_record_trace (record_step returned).2.2 calls]
      · exact ih

end Runs

/-- In every run of a ceremony at most five attempts are counted, an attempt is accepted
only in the open window and only for the two expected texts, the reason of a closure
stays, and at most one record is returned, by a confirmed ceremony. -/
theorem ceremony_safe (terms : CeremonyTerms) (calls : List (Call × DateTime)) :
    (∀ event ∈ trace (create terms) calls, Sound terms event) ∧
      (trace (create terms) calls).Pairwise KeepsReason ∧
      (trace (create terms) calls).countP (·.outcome.isRecord) ≤ 1 := by
  have counted : Counted (create terms) := ⟨Nat.zero_le _, fun _ => Nat.succ_pos _⟩
  exact ⟨sound_trace rfl counted calls, pairwise_keepsReason calls, records_trace calls⟩

end PairingCeremony

end DawnDock.App
