import DawnDock.Library.AtomicProgram

/-!
Operations under an exclusive lock.

An operation is a program over the calls of a resource, in brackets: it acquires the lock,
runs, and releases the lock, or it is refused the lock and says so (`locked`). Clients call
operations; what a thread executes is the calls of their bodies (`expand`), one at a time,
beside the calls of all other threads (`PoolReaches`).

`Exclusive` is what the resource owes: only the holder's calls act on the data, and only
the holder releases the lock. Then every execution is a serial one (`exclusive_serial`):
each operation happens as one atomic step (`Atomically`), where its thread releases the lock
or is refused it.
-/

namespace AtomicProgram

open Program

/-! ### Programs in brackets -/

section Programs

variable {Call : Type} {Reply : Call → Type} {α β : Type}

/-- The calls of a resource and of the lock around it. -/
inductive LockCall (Call : Type) where
  | acquire
  | release
  | access (c : Call)

abbrev LockReply (Reply : Call → Type) : LockCall Call → Type
  | .acquire => Bool
  | .release => Unit
  | .access c => Reply c

/-- A program of the resource's calls. -/
def held : Program Reply α → Program (LockReply Reply) α
  | done a => done a
  | call c next => call (.access c) fun r => held (next r)

/-- A program under the lock; `refused` is its answer where it does not get it. -/
def locked (p : Program Reply α) (refused : α) : Program (LockReply Reply) α :=
  call .acquire fun acquired : Bool =>
    if acquired then held p >>= fun a => call .release fun _ => done a else done refused

variable {Op : Type} {Result : Op → Type} {Call' : Type} {Reply' : Call' → Type}

/-- A client of operations, as a client of the calls in their bodies. -/
def expand (body : (o : Op) → Program Reply' (Result o)) : Program Result α → Program Reply' α
  | done a => done a
  | call o next => body o >>= fun r => expand body (next r)

/-- What is left of an operation whose thread holds the lock. -/
def inside (q : Program Reply α) (next : α → Program (LockReply Reply) β) :
    Program (LockReply Reply) β :=
  held q >>= fun a => call .release fun _ => next a

theorem bind_assoc (p : Program Reply' α) {γ : Type} (f : α → Program Reply' β)
    (g : β → Program Reply' γ) : (p >>= f) >>= g = p >>= fun a => f a >>= g := by
  induction p with
  | done a => rfl
  | call c next ih =>
      simp only [call_bind]
      exact congrArg (call c) (funext ih)

theorem inside_call (c : Call) (q : Reply c → Program Reply α)
    (next : α → Program (LockReply Reply) β) :
    inside (call c q) next = call (.access c) fun r => inside (q r) next := rfl

theorem inside_done (a : α) (next : α → Program (LockReply Reply) β) :
    inside (done a : Program Reply α) next = call .release fun _ => next a := rfl

/-- A locked operation in front of the rest of its client. -/
theorem locked_bind (p : Program Reply α) (refused : α)
    (next : α → Program (LockReply Reply) β) :
    locked p refused >>= next =
      call .acquire fun acquired : Bool => if acquired then inside p next else next refused := by
  rw [locked, call_bind]
  refine congrArg _ (funext fun acquired => ?_)
  cases acquired with
  | false => rfl
  | true =>
      simp only [if_true]
      rw [bind_assoc]
      rfl

end Programs

/-! ### Executions -/

section Executions

variable {Call : Type} {Reply : Call → Type} {α τ : Type}

/-- A resource: what a call may answer, and what it may leave. -/
abbrev Resource (Reply : Call → Type) (τ : Type) := τ → (c : Call) → Reply c → τ → Prop

/-- A program alone with the resource, up to some call. -/
inductive Reaches (step : Resource Reply τ) (p : Program Reply α) (t : τ) :
    Program Reply α → τ → Prop where
  | refl : Reaches step p t p t
  | call {c : Call} {next : Reply c → Program Reply α} {r : Reply c} {u u' : τ}
      (before : Reaches step p t (call c next) u) (answered : step u c r u') :
      Reaches step p t (next r) u'

/-- A program alone with the resource, to its end. -/
def Runs (step : Resource Reply τ) (p : Program Reply α) (t : τ) (a : α) (t' : τ) : Prop :=
  Reaches step p t (done a) t'

section Alone

variable {step : Resource Reply τ}

theorem reaches_call {c : Call} {next : Reply c → Program Reply α} {q : Program Reply α} {t v : τ} :
    Reaches step (call c next) t q v ↔
      (q = call c next ∧ v = t) ∨ ∃ r u, step t c r u ∧ Reaches step (next r) u q v := by
  constructor
  · intro reached
    induction reached with
    | refl => exact .inl ⟨rfl, rfl⟩
    | @call c' next' r u u' _ answered ih =>
        rcases ih with ⟨same, rfl⟩ | ⟨first, w, head, tail⟩
        · cases same
          exact .inr ⟨r, u', answered, .refl⟩
        · exact .inr ⟨first, w, head, tail.call answered⟩
  · rintro (⟨rfl, rfl⟩ | ⟨r, u, head, tail⟩)
    · exact .refl
    · induction tail with
      | refl => exact .call .refl head
      | call _ answered ih => exact .call ih answered

theorem runs_call {c : Call} {next : Reply c → Program Reply α} {a : α} {t t' : τ} :
    Runs step (call c next) t a t' ↔ ∃ r u, step t c r u ∧ Runs step (next r) u a t' := by
  rw [Runs, reaches_call]
  simp [Runs]

theorem reaches_done {a : α} {q : Program Reply α} {t v : τ} :
    Reaches step (done a) t q v ↔ q = done a ∧ v = t := by
  constructor
  · intro reached
    induction reached with
    | refl => exact ⟨rfl, rfl⟩
    | call _ _ ih => cases ih.1
  · rintro ⟨rfl, rfl⟩
    exact .refl

theorem runs_done {a b : α} {t t' : τ} : Runs step (done a) t b t' ↔ b = a ∧ t' = t := by
  rw [Runs, reaches_done]
  simp

theorem runs_bind {β : Type} {p : Program Reply α} {f : α → Program Reply β} {b : β} {t t' : τ} :
    Runs step (p >>= f) t b t' ↔ ∃ a u, Runs step p t a u ∧ Runs step (f a) u b t' := by
  induction p generalizing t with
  | done a =>
      rw [done_bind]
      constructor
      · intro rest
        exact ⟨a, t, runs_done.mpr ⟨rfl, rfl⟩, rest⟩
      · rintro ⟨a', u, first, rest⟩
        obtain ⟨rfl, rfl⟩ := runs_done.mp first
        exact rest
  | call c next ih =>
      rw [call_bind, runs_call]
      constructor
      · rintro ⟨r, u, answered, rest⟩
        obtain ⟨a, v, first, rest⟩ := (ih r).mp rest
        exact ⟨a, v, runs_call.mpr ⟨r, u, answered, first⟩, rest⟩
      · rintro ⟨a, v, first, rest⟩
        obtain ⟨r, u, answered, first⟩ := runs_call.mp first
        exact ⟨r, u, answered, (ih r).mpr ⟨a, v, first, rest⟩⟩

end Alone

variable {ι : Type} [DecidableEq ι] {σ : Type} {β : ι → Type}

/-- Threads beside each other: `Step i` is what the resource does on a call of thread `i`. -/
inductive PoolReaches (Step : ι → Resource Reply σ) (s : σ) (pool : Pool Reply β) :
    σ → Pool Reply β → Prop where
  | refl : PoolReaches Step s pool s pool
  | call {i : ι} {c : Call} {next : Reply c → Program Reply (β i)} {r : Reply c} {u u' : σ}
      {others : Pool Reply β} (before : PoolReaches Step s pool u others)
      (atCall : others i = call c next) (answered : Step i u c r u') :
      PoolReaches Step s pool u' (Function.update others i (next r))

/-- What keeps an invariant of the state keeps it along every execution. -/
theorem PoolReaches.invariant {Step : ι → Resource Reply σ} {P : σ → Prop} {s s' : σ}
    {pool pool' : Pool Reply β} (reaches : PoolReaches Step s pool s' pool') (start : P s)
    (kept : ∀ i u c r u', P u → Step i u c r u' → P u') : P s' := by
  induction reaches with
  | refl => exact start
  | call _ _ answered ih => exact kept _ _ _ _ _ ih answered

/-- The stream that comes after this value. -/
def startingWith {φ : Type} (first : φ) (stream : ℕ → φ) : ℕ → φ
  | 0 => first
  | n + 1 => stream n

/-- An execution of a resource that may be any of some objects at each call is the run of a
pool over a stream of them. -/
theorem PoolReaches.runs {φ : Type} {objs : φ → Object Reply σ} {s s' : σ}
    {pool pool' : Pool Reply β} (some : φ)
    (reaches : PoolReaches (fun _ u c r u' => ∃ f, objs f u c = (r, u')) s pool s' pool') :
    ∃ schedule, ∃ stream : ℕ → φ,
      (runPool (withStream fun n => objs (stream n)) schedule (0, s) pool).2.1.2 = s' ∧
      (runPool (withStream fun n => objs (stream n)) schedule (0, s) pool).2.2 = pool' := by
  -- What runs on from where the execution has come to, runs from its start.
  have extended : ∀ schedule, ∀ stream : ℕ → φ, ∃ schedule', ∃ stream' : ℕ → φ,
      let whole := runPool (withStream fun n => objs (stream' n)) schedule' (0, s) pool
      let rest := runPool (withStream fun n => objs (stream n)) schedule (0, s') pool'
      whole.2.1.2 = rest.2.1.2 ∧ whole.2.2 = rest.2.2 := by
    induction reaches with
    | refl => exact fun schedule stream => ⟨schedule, stream, rfl, rfl⟩
    | @call i c next r u u' others _ atCall answered ih =>
        intro schedule stream
        obtain ⟨f, answers⟩ := answered
        let later := startingWith f stream
        have sim : Simulates (withStream fun n => objs (stream n))
            (withStream fun n => objs (later n)) fun s : ℕ × σ => (s.1 + 1, s.2) :=
          fun _ _ => rfl
        have shifted := sim.runPool schedule (0, u') (Function.update others i (next r))
        obtain ⟨schedule', stream', state, programs⟩ := ih (i :: schedule) later
        have first : runPool (withStream fun n => objs (later n)) (i :: schedule) (0, u) others =
            ((i, eventAt (withStream fun n => objs (later n)) (0, u) c) ::
                (runPool (withStream fun n => objs (later n)) schedule (1, u')
                  (Function.update others i (next r))).1,
              (runPool (withStream fun n => objs (later n)) schedule (1, u')
                (Function.update others i (next r))).2) := by
          have head : objs (later 0) u c = (r, u') := answers
          simp only [runPool, stepPool, atCall, withStream, head]
          rfl
        refine ⟨schedule', stream', state.trans ?_, programs.trans ?_⟩
        · rw [first]
          exact congrArg (fun run => run.2.1.2) shifted
        · rw [first]
          exact congrArg (fun run => run.2.2) shifted
  obtain ⟨schedule, stream, state, programs⟩ := extended [] fun _ => some
  exact ⟨schedule, stream, state, programs⟩

end Executions

/-! ### Exclusion -/

/-- The threads beside the holder do not hold the lock. -/
theorem not_holds_of_ne {ι : Type} {i j : ι} (other : j ≠ i) : ¬ some i = some j :=
  fun same => other (Option.some.inj same).symm

section Exclusion

variable {ι : Type} [DecidableEq ι] {Call : Type} {Reply : Call → Type} {σ τ : Type}

/-- A resource with a lock, seen through who holds it and through its data. -/
structure Exclusive (Step : ι → Resource (LockReply Reply) σ) (Inv : σ → Prop)
    (holder : σ → Option ι) (data : σ → τ) (step : Resource Reply τ) : Prop where
  kept {i : ι} {s s' : σ} {c : LockCall Call} {r : LockReply Reply c} :
    Inv s → Step i s c r s' → Inv s'
  acquired {i : ι} {s s' : σ} : Inv s → Step i s .acquire true s' →
    holder s = none ∧ holder s' = some i ∧ data s' = data s
  refused {i : ι} {s s' : σ} : Inv s → Step i s .acquire false s' →
    holder s' = holder s ∧ data s' = data s
  accessed {i : ι} {s s' : σ} {c : Call} {r : Reply c} : Inv s → holder s = some i →
    Step i s (.access c) r s' → holder s' = some i ∧ step (data s) c r (data s')
  released {i : ι} {s s' : σ} : Inv s → holder s = some i → Step i s .release () s' →
    holder s' = none ∧ data s' = data s

variable {Op : Type} {Result : Op → Type} (inner : (o : Op) → Program Reply (Result o))
  (refusal : (o : Op) → Result o) (step : Resource Reply τ)

/-- The operations, each under the lock. -/
def lockedOp (o : Op) : Program (LockReply Reply) (Result o) := locked (inner o) (refusal o)

/-- An operation in one step: refused, or run from its start to its end. -/
def Atomically : Resource Result τ := fun t o r t' =>
  (r = refusal o ∧ t' = t) ∨ Runs step (inner o) t r t'

variable {β : ι → Type}

/-- Where a thread of an execution stands in the serial one. -/
inductive Stands (data : τ) (holds : Prop) (t : τ) {α : Type} :
    Program (LockReply Reply) α → Program Result α → Prop where
  | outside {client : Program Result α} (free : ¬ holds) :
      Stands data holds t (expand (lockedOp inner refusal) client) client
  | inside {o : Op} {next : Result o → Program Result α} {q : Program Reply (Result o)}
      (holding : holds) (reached : Reaches step (inner o) t q data) :
      Stands data holds t
        (inside q fun r => expand (lockedOp inner refusal) (next r)) (call o next)

variable {inner refusal step} {Step : ι → Resource (LockReply Reply) σ} {Inv : σ → Prop}
  {holder : σ → Option ι} {data : σ → τ}

/-- A thread outside stays where it is, whatever the others do. -/
theorem Stands.moved {d d' t t' : τ} {holds holds' : Prop} {α : Type}
    {thread : Program (LockReply Reply) α} {client : Program Result α}
    (stands : Stands inner refusal step d holds t thread client) (free : ¬ holds)
    (free' : ¬ holds') : Stands inner refusal step d' holds' t' thread client := by
  cases stands with
  | outside => exact .outside free'
  | inside holding => exact absurd holding free

/-- An execution and the serial one it comes from. -/
structure Serial (inner : (o : Op) → Program Reply (Result o)) (refusal : (o : Op) → Result o)
    (step : Resource Reply τ) (holder : Option ι) (data : τ) (threads : Pool (LockReply Reply) β)
    (t : τ) (clients : Pool Result β) : Prop where
  settled : holder = none → data = t
  stands (i : ι) : Stands inner refusal step data (holder = some i) t (threads i) (clients i)

section Serial

variable {held : Option ι} {d d' t : τ} {threads : Pool (LockReply Reply) β}
  {later : Pool Result β} {i : ι} {o : Op} {rest : Result o → Program Result (β i)}

/-- A thread takes the free lock, and stands at the start of its operation. -/
theorem Serial.acquire (serial : Serial inner refusal step none d threads t later)
    (client : later i = call o rest) :
    Serial inner refusal step (some i) d
      (Function.update threads i
        (inside (inner o) fun r => expand (lockedOp inner refusal) (rest r))) t later := by
  refine ⟨fun none => absurd none (by simp), fun j => ?_⟩
  by_cases own : j = i
  · subst own
    rw [Function.update_self, client, serial.settled rfl]
    exact .inside rfl .refl
  · rw [Function.update_of_ne own]
    exact (serial.stands j).moved (by simp) (not_holds_of_ne own)

/-- A thread that is refused the lock has its operation behind it. -/
theorem Serial.refuse (serial : Serial inner refusal step held d threads t later)
    (away : ¬ held = some i) (r : Result o) :
    Serial inner refusal step held d
      (Function.update threads i (expand (lockedOp inner refusal) (rest r))) t
      (Function.update later i (rest r)) := by
  refine ⟨serial.settled, fun j => ?_⟩
  by_cases own : j = i
  · subst own
    rw [Function.update_self, Function.update_self]
    exact .outside away
  · rw [Function.update_of_ne own, Function.update_of_ne own]
    exact serial.stands j

/-- The holder goes on inside its operation. -/
theorem Serial.access {q : Program Reply (Result o)}
    (serial : Serial inner refusal step (some i) d threads t later)
    (client : later i = call o rest) (reached : Reaches step (inner o) t q d') :
    Serial inner refusal step (some i) d'
      (Function.update threads i (inside q fun r => expand (lockedOp inner refusal) (rest r))) t
      later := by
  refine ⟨fun none => absurd none (by simp), fun j => ?_⟩
  by_cases own : j = i
  · subst own
    rw [Function.update_self, client]
    exact .inside rfl reached
  · rw [Function.update_of_ne own]
    exact (serial.stands j).moved (not_holds_of_ne own) (not_holds_of_ne own)

/-- The holder gives the lock back: its operation has run from its start to its end. -/
theorem Serial.release (serial : Serial inner refusal step (some i) d threads t later)
    (r : Result o) :
    Serial inner refusal step none d
      (Function.update threads i (expand (lockedOp inner refusal) (rest r))) d
      (Function.update later i (rest r)) := by
  refine ⟨fun _ => rfl, fun j => ?_⟩
  by_cases own : j = i
  · subst own
    rw [Function.update_self, Function.update_self]
    exact .outside (by simp)
  · rw [Function.update_of_ne own, Function.update_of_ne own]
    exact (serial.stands j).moved (not_holds_of_ne own) (by simp)

end Serial

/-- Every execution under an exclusive lock is a serial one. -/
theorem exclusive_serial (exclusive : Exclusive Step Inv holder data step) {s s' : σ}
    {clients : Pool Result β} {threads : Pool (LockReply Reply) β} (inv : Inv s)
    (free : holder s = none)
    (reaches : PoolReaches Step s (fun i => expand (lockedOp inner refusal) (clients i)) s'
      threads) :
    ∃ t later, PoolReaches (fun _ => Atomically inner refusal step) (data s) clients t later ∧
      Serial inner refusal step (holder s') (data s') threads t later := by
  induction reaches with
  | refl =>
      refine ⟨data s, clients, .refl, fun _ => rfl, fun i => .outside ?_⟩
      rw [free]
      simp
  | @call i c next r u u' others before atCall answered ih =>
      obtain ⟨t, later, runs, serial⟩ := ih
      have valid : Inv u := before.invariant inv fun _ _ _ _ _ => exclusive.kept
      have mine := serial.stands i
      rw [atCall] at mine
      -- A thread that does not hold the lock stands before an operation.
      generalize client : later i = remaining at mine
      generalize program : call c next = thread at mine
      cases mine with
      | outside away =>
          cases remaining with
          | done a => cases program
          | call o rest =>
              rw [expand, lockedOp, locked_bind] at program
              cases program
              cases r with
              | true =>
                  obtain ⟨idle, holds, same⟩ := exclusive.acquired valid answered
                  rw [idle] at serial
                  rw [holds, same]
                  exact ⟨t, later, runs, serial.acquire client⟩
              | false =>
                  obtain ⟨still, same⟩ := exclusive.refused valid answered
                  rw [still, same]
                  exact ⟨t, _, runs.call client (.inl ⟨rfl, rfl⟩), serial.refuse away _⟩
      | @inside o rest q holding reached =>
          cases q with
          | done a =>
              rw [inside_done] at program
              cases program
              obtain ⟨idle, same⟩ := exclusive.released valid holding answered
              rw [holding] at serial
              rw [idle, same]
              exact ⟨data u, _, runs.call client (.inr reached), serial.release a⟩
          | call c' q =>
              rw [inside_call] at program
              cases program
              obtain ⟨holds, answer⟩ := exclusive.accessed valid holding answered
              rw [holding] at serial
              rw [holds]
              exact ⟨t, later, runs, serial.access client (.call reached answer)⟩

/-- A thread outside stands before the rest of its client. -/
theorem Stands.of_free {d t : τ} {holds : Prop} {α : Type}
    {thread : Program (LockReply Reply) α} {client : Program Result α}
    (stands : Stands inner refusal step d holds t thread client) (free : ¬ holds) :
    thread = expand (lockedOp inner refusal) client := by
  cases stands with
  | outside => rfl
  | inside holding => exact absurd holding free

/-- A thread that has returned holds nothing, and did so in the serial execution. -/
theorem Stands.returned {d t : τ} {holds : Prop} {α : Type} {a : α} {client : Program Result α}
    (stands : Stands inner refusal step d holds t (done a) client) :
    client = done a ∧ ¬ holds := by
  generalize program : (done a : Program (LockReply Reply) α) = thread at stands
  cases stands with
  | outside free =>
      cases client with
      | done b =>
          cases program
          exact ⟨rfl, free⟩
      | call o next =>
          rw [expand, lockedOp, locked_bind] at program
          cases program
  | @inside o next q =>
      cases q with
      | done b => cases program
      | call c q => cases program

end Exclusion

end AtomicProgram
