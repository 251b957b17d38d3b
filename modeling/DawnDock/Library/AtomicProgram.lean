import Mathlib.Logic.Function.Basic
import Mathlib.Data.List.Basic

/-!
Client programs of an atomic object.

An object answers one call at a time: `Object Reply σ` maps a state and a call
to the reply and the next state. A `Program` is the client's side: it returns,
or issues a call and continues on the reply. The same program is run three ways:

* alone, `exec`, with its calls recorded by `events`;
* beside other programs, `runPool`, one atomic call at a time in any order;
* against no object at all, `Meets`: a judgement over the log of the program's own
  calls. It bounds what the program calls and returns, given what every call is
  answered. `Meets` is proved once per program and holds in every execution of
  the first two kinds (`Meets.exec`, `Meets.runPool`). `Ensures` is the judgement
  for a program that is alone, which also knows the object's state.

`Simulates` transports executions along a view of the object's state.
`FailStop` programs give up on the first failed reply: under faults they do a
part of what they do without (`FailStop.exec_cut`).
-/

namespace AtomicProgram

variable {Call : Type} {Reply : Call → Type}

/-- A client of an object whose calls `c` are answered in `Reply c`. -/
inductive Program {Call : Type} (Reply : Call → Type) (α : Type) : Type where
  | done (result : α)
  | call (c : Call) (next : Reply c → Program Reply α)

namespace Program

variable {α β : Type}

def bind : Program Reply α → (α → Program Reply β) → Program Reply β
  | done a, f => f a
  | call c next, f => call c fun r => (next r).bind f

instance : Monad (Program Reply) where
  pure := done
  bind := bind

/-- Issue one call and return its reply. -/
def issue (c : Call) : Program Reply (Reply c) := call c done

/-- The result of a program that has returned. -/
def result? : Program Reply α → Option α
  | done a => some a
  | call .. => none

theorem result?_eq_some {p : Program Reply α} {a : α} : p.result? = some a ↔ p = done a := by
  cases p <;> simp [result?]

@[simp] theorem pure_eq (a : α) : (pure a : Program Reply α) = done a := rfl

@[simp] theorem done_bind (a : α) (f : α → Program Reply β) : (done a >>= f) = f a := rfl

@[simp] theorem call_bind (c : Call) (next : Reply c → Program Reply α)
    (f : α → Program Reply β) : (call c next >>= f) = call c fun r => next r >>= f := rfl

@[simp] theorem issue_bind (c : Call) (f : Reply c → Program Reply β) :
    (issue c >>= f) = call c f := rfl

end Program

open Program

/-! ### Running alone -/

/-- An object with state `σ`: each call is one atomic step. -/
abbrev Object (Reply : Call → Type) (σ : Type) := σ → (c : Call) → Reply c × σ

/-- One call as it happened. -/
structure Event (Reply : Call → Type) (σ : Type) where
  before : σ
  call : Call
  reply : Reply call
  after : σ

section Sequential

variable {σ α β : Type} (obj : Object Reply σ)

/-- The call `c` issued in state `s`. -/
def eventAt (s : σ) (c : Call) : Event Reply σ := ⟨s, c, (obj s c).1, (obj s c).2⟩

/-- Run a program alone, from a state to its result and the final state. -/
def exec : Program Reply α → σ → α × σ
  | done a, s => (a, s)
  | call c next, s => exec (next (obj s c).1) (obj s c).2

/-- The calls of a solitary run, in order. -/
def events : Program Reply α → σ → List (Event Reply σ)
  | done _, _ => []
  | call c next, s => eventAt obj s c :: events (next (obj s c).1) (obj s c).2

@[simp] theorem exec_done (a : α) (s : σ) : exec obj (done a : Program Reply α) s = (a, s) := rfl

@[simp] theorem exec_call (c : Call) (next : Reply c → Program Reply α) (s : σ) :
    exec obj (call c next) s = exec obj (next (obj s c).1) (obj s c).2 := rfl

@[simp] theorem events_done (a : α) (s : σ) : events obj (done a : Program Reply α) s = [] := rfl

@[simp] theorem events_call (c : Call) (next : Reply c → Program Reply α) (s : σ) :
    events obj (call c next) s =
      eventAt obj s c :: events obj (next (obj s c).1) (obj s c).2 := rfl

theorem exec_bind (p : Program Reply α) (f : α → Program Reply β) (s : σ) :
    exec obj (p >>= f) s = exec obj (f (exec obj p s).1) (exec obj p s).2 := by
  induction p generalizing s with
  | done a => rfl
  | call c next ih => exact ih _ _

/-- Every recorded event is a step of the object. -/
theorem event_step (p : Program Reply α) (s : σ) :
    ∀ e ∈ events obj p s, e = eventAt obj e.before e.call := by
  induction p generalizing s with
  | done a => simp
  | call c next ih =>
      intro e he
      rcases List.mem_cons.mp he with rfl | he
      · rfl
      · exact ih _ _ e he

/-- The events lead from one state to another, each starting where the one
before it ended. -/
def Linked : σ → List (Event Reply σ) → σ → Prop
  | s, [], t => s = t
  | s, e :: rest, t => e.before = s ∧ Linked e.after rest t

theorem events_linked (p : Program Reply α) (s : σ) :
    Linked s (events obj p s) (exec obj p s).2 := by
  induction p generalizing s with
  | done a => rfl
  | call c next ih => exact ⟨rfl, ih _ _⟩

/-- Along linked events, a relation that every event respects holds from the first
state to all others and from each event to the later ones. -/
theorem Linked.related {R : σ → σ → Prop} (refl : ∀ s, R s s)
    (trans : ∀ {s t u}, R s t → R t u → R s u) {s t : σ} {events : List (Event Reply σ)}
    (linked : Linked s events t) (step : ∀ e ∈ events, R e.before e.after) :
    R s t ∧ (∀ e ∈ events, R s e.before) ∧ events.Pairwise fun e f => R e.after f.before := by
  induction events generalizing s with
  | nil =>
      obtain rfl := linked
      exact ⟨refl s, by simp, .nil⟩
  | cons e rest ih =>
      obtain ⟨rfl, linked⟩ := linked
      have first := step e List.mem_cons_self
      obtain ⟨final, before, pairwise⟩ :=
        ih linked fun f hf => step f (List.mem_cons_of_mem _ hf)
      refine ⟨trans first final, fun f hf => ?_, .cons before pairwise⟩
      rcases List.mem_cons.mp hf with rfl | hf
      · exact refl _
      · exact trans first (before f hf)

/-- What every event preserves holds at the end of linked events. -/
theorem Linked.invariant {P : σ → Prop} {s t : σ} {events : List (Event Reply σ)}
    (linked : Linked s events t) (start : P s) (step : ∀ e ∈ events, P e.before → P e.after) :
    P t := by
  induction events generalizing s with
  | nil =>
      obtain rfl := linked
      exact start
  | cons e rest ih =>
      obtain ⟨rfl, linked⟩ := linked
      exact ih linked (step e List.mem_cons_self start) fun f hf =>
        step f (List.mem_cons_of_mem _ hf)

theorem linked_append {s t : σ} {first second : List (Event Reply σ)} :
    Linked s (first ++ second) t ↔ ∃ middle, Linked s first middle ∧ Linked middle second t := by
  induction first generalizing s with
  | nil => simp [Linked]
  | cons e rest ih => simp [Linked, ih, and_assoc, exists_and_left]

theorem Linked.last {s t : σ} {events : List (Event Reply σ)} (linked : Linked s events t)
    {e : Event Reply σ} (last : events.getLast? = some e) : e.after = t := by
  obtain ⟨first, rfl⟩ := List.getLast?_eq_some_iff.mp last
  obtain ⟨middle, -, -, final⟩ := linked_append.mp linked
  exact final

end Sequential

/-! ### Simulation along a view -/

/-- The first object answers every call as the second does in the viewed state. -/
def Simulates {σ τ : Type} (obj : Object Reply σ) (spec : Object Reply τ) (view : σ → τ) : Prop :=
  ∀ s c, spec (view s) c = ((obj s c).1, view (obj s c).2)

/-- The event as it appears in the viewed state. -/
def Event.mapState {σ τ : Type} (f : σ → τ) (e : Event Reply σ) : Event Reply τ :=
  ⟨f e.before, e.call, e.reply, f e.after⟩

theorem Linked.mapState {σ τ : Type} (f : σ → τ) {s t : σ} {events : List (Event Reply σ)}
    (linked : Linked s events t) : Linked (f s) (events.map (Event.mapState f)) (f t) := by
  induction events generalizing s with
  | nil => exact congrArg f linked
  | cons e rest ih => exact ⟨congrArg f linked.1, ih linked.2⟩

section Simulation

variable {σ τ α : Type} {obj : Object Reply σ} {spec : Object Reply τ} {view : σ → τ}

theorem Simulates.eventAt (sim : Simulates obj spec view) (s : σ) (c : Call) :
    (eventAt obj s c).mapState view = eventAt spec (view s) c := by
  simp only [AtomicProgram.eventAt, Event.mapState, sim s c]

theorem Simulates.exec (sim : Simulates obj spec view) (p : Program Reply α) (s : σ) :
    AtomicProgram.exec spec p (view s) =
      ((AtomicProgram.exec obj p s).1, view (AtomicProgram.exec obj p s).2) := by
  induction p generalizing s with
  | done a => rfl
  | call c next ih => rw [exec_call, exec_call, sim s c, ih]

theorem Simulates.events (sim : Simulates obj spec view) (p : Program Reply α) (s : σ) :
    (AtomicProgram.events obj p s).map (Event.mapState view) =
      AtomicProgram.events spec p (view s) := by
  induction p generalizing s with
  | done a => rfl
  | call c next ih =>
      rw [events_call, events_call, List.map_cons, sim.eventAt, ih, sim s c]

end Simulation

/-! ### Programs against a rely -/

/-- The calls of one program, oldest first. -/
abbrev Log (Reply : Call → Type) (σ : Type) := List (Event Reply σ)

section Rely

variable {σ α β : Type} {rely : Log Reply σ → Event Reply σ → Prop}

/-- Every event stands in the relation to the log that precedes it. -/
def Along (R : Log Reply σ → Event Reply σ → Prop) : Log Reply σ → Log Reply σ → Prop
  | _, [] => True
  | log, e :: rest => R log e ∧ Along R (log ++ [e]) rest

theorem along_append {R : Log Reply σ → Event Reply σ → Prop} {log first second : Log Reply σ} :
    Along R log (first ++ second) ↔ Along R log first ∧ Along R (log ++ first) second := by
  induction first generalizing log with
  | nil => simp [Along]
  | cons e rest ih => simp [Along, ih, and_assoc]

/-- If every call is answered as `rely` says, the result and the final log
satisfy `post`. -/
def Meets (rely : Log Reply σ → Event Reply σ → Prop) (post : α → Log Reply σ → Prop) :
    Program Reply α → Log Reply σ → Prop
  | done a, log => post a log
  | call c next, log => ∀ before reply after, rely log ⟨before, c, reply, after⟩ →
      Meets rely post (next reply) (log ++ [⟨before, c, reply, after⟩])

theorem Meets.post {post post' : α → Log Reply σ → Prop} {p : Program Reply α} {log : Log Reply σ}
    (h : Meets rely post p log) (posts : ∀ a log, post a log → post' a log) :
    Meets rely post' p log := by
  induction p generalizing log with
  | done a => exact posts a log h
  | call c next ih =>
      intro before reply after answered
      exact ih reply (h before reply after answered)

theorem Meets.and {post post' : α → Log Reply σ → Prop} {p : Program Reply α} {log : Log Reply σ}
    (h : Meets rely post p log) (h' : Meets rely post' p log) :
    Meets rely (fun a log => post a log ∧ post' a log) p log := by
  induction p generalizing log with
  | done a => exact ⟨h, h'⟩
  | call c next ih =>
      intro before reply after answer
      exact ih reply (h before reply after answer) (h' before reply after answer)

theorem Meets.bind {post : α → Log Reply σ → Prop} {post' : β → Log Reply σ → Prop}
    {p : Program Reply α} {f : α → Program Reply β} {log : Log Reply σ}
    (h : Meets rely post p log) (next : ∀ a log, post a log → Meets rely post' (f a) log) :
    Meets rely post' (p >>= f) log := by
  induction p generalizing log with
  | done a => exact next a log h
  | call c more ih =>
      intro before reply after answered
      exact ih reply (h before reply after answered)

/-- One call, and what follows each answer. -/
theorem Meets.issue {post : α → Log Reply σ → Prop} {c : Call} {f : Reply c → Program Reply α}
    {log : Log Reply σ}
    (h : ∀ before reply after, rely log ⟨before, c, reply, after⟩ →
      Meets rely post (f reply) (log ++ [⟨before, c, reply, after⟩])) :
    Meets rely post (Program.issue c >>= f) log := h

/-- Soundness for a solitary run, of which the log is a view. -/
theorem Meets.exec {τ : Type} {obj : Object Reply τ} (view : τ → σ) {post : α → Log Reply σ → Prop}
    {p : Program Reply α} {log : Log Reply σ} (h : Meets rely post p log) {s : τ}
    (answers : Along rely log ((events obj p s).map (Event.mapState view))) :
    post (AtomicProgram.exec obj p s).1 (log ++ (events obj p s).map (Event.mapState view)) := by
  induction p generalizing log s with
  | done a => rwa [events_done, List.map_nil, List.append_nil]
  | call c next ih =>
      have final := ih _ (h _ _ _ answers.1) answers.2
      rwa [List.append_assoc, List.singleton_append] at final

end Rely

/-! ### Programs alone -/

section Alone

variable {σ α β : Type} {answers : (s : σ) → (c : Call) → Reply c × σ → Prop}

/-- If nobody else calls and every call is answered as `answers` says, the result,
the log and the final state satisfy `post`. -/
def Ensures (answers : (s : σ) → (c : Call) → Reply c × σ → Prop)
    (post : α → Log Reply σ → σ → Prop) : Program Reply α → Log Reply σ → σ → Prop
  | done a, log, s => post a log s
  | call c next, log, s => ∀ reply t, answers s c (reply, t) →
      Ensures answers post (next reply) (log ++ [⟨s, c, reply, t⟩]) t

theorem Ensures.post {post post' : α → Log Reply σ → σ → Prop} {p : Program Reply α}
    {log : Log Reply σ} {s : σ} (h : Ensures answers post p log s)
    (posts : ∀ a log s, post a log s → post' a log s) : Ensures answers post' p log s := by
  induction p generalizing log s with
  | done a => exact posts a log s h
  | call c next ih =>
      intro reply t answer
      exact ih reply (h reply t answer)

theorem Ensures.bind {post : α → Log Reply σ → σ → Prop} {post' : β → Log Reply σ → σ → Prop}
    {p : Program Reply α} {f : α → Program Reply β} {log : Log Reply σ} {s : σ}
    (h : Ensures answers post p log s)
    (next : ∀ a log s, post a log s → Ensures answers post' (f a) log s) :
    Ensures answers post' (p >>= f) log s := by
  induction p generalizing log s with
  | done a => exact next a log s h
  | call c more ih =>
      intro reply t answer
      exact ih reply (h reply t answer)

/-- The calls made so far stay in the log. -/
theorem Ensures.extends {post : α → Log Reply σ → σ → Prop} {p : Program Reply α}
    {log : Log Reply σ} {s : σ} (h : Ensures answers post p log s) :
    Ensures answers (fun a log' t => post a log' t ∧ ∃ own, log' = log ++ own) p log s := by
  induction p generalizing log s with
  | done a => exact ⟨h, [], (List.append_nil log).symm⟩
  | call c next ih =>
      intro reply t answer
      refine (ih reply (h reply t answer)).post ?_
      rintro a log' final ⟨ends, own, rfl⟩
      exact ⟨ends, ⟨s, c, reply, t⟩ :: own, List.append_assoc ..⟩

/-- Soundness for a solitary run whose own calls are answered so. -/
theorem Ensures.exec_of_events {τ : Type} {obj : Object Reply τ} (view : τ → σ)
    {post : α → Log Reply σ → σ → Prop} {p : Program Reply α} {log : Log Reply σ} {s : τ}
    (h : Ensures answers post p log (view s))
    (sound : ∀ e ∈ events obj p s, answers (view e.before) e.call (e.reply, view e.after)) :
    post (AtomicProgram.exec obj p s).1 (log ++ (events obj p s).map (Event.mapState view))
      (view (AtomicProgram.exec obj p s).2) := by
  induction p generalizing log s with
  | done a => rwa [events_done, List.map_nil, List.append_nil]
  | call c next ih =>
      rw [events_call] at sound
      have final := ih _ (h _ _ (sound _ List.mem_cons_self))
        fun e later => sound e (List.mem_cons_of_mem _ later)
      rwa [List.append_assoc, List.singleton_append] at final

/-- Soundness for a solitary run, of which the states are a view. -/
theorem Ensures.exec {τ : Type} {obj : Object Reply τ} (view : τ → σ)
    {post : α → Log Reply σ → σ → Prop} {p : Program Reply α} {log : Log Reply σ} {s : τ}
    (h : Ensures answers post p log (view s))
    (sound : ∀ s c, answers (view s) c ((obj s c).1, view (obj s c).2)) :
    post (AtomicProgram.exec obj p s).1 (log ++ (events obj p s).map (Event.mapState view))
      (view (AtomicProgram.exec obj p s).2) := by
  refine h.exec_of_events view ?_
  intro e mem
  rw [event_step obj p s e mem]
  exact sound _ _

end Alone

/-! ### Giving up on failure -/

section FailStop

variable {σ α β : Type} {failed : (c : Call) → Reply c → Prop}

/-- After a failed reply the program makes no call and returns a result that
says so. -/
def FailStop (failed : (c : Call) → Reply c → Prop) (gaveUp : α → Prop) :
    Program Reply α → Prop
  | done _ => True
  | call c next => ∀ r, (failed c r → ∃ a, next r = done a ∧ gaveUp a) ∧
      FailStop failed gaveUp (next r)

theorem FailStop.bind {gaveUp : α → Prop} {gaveUp' : β → Prop} {p : Program Reply α}
    {f : α → Program Reply β} (h : FailStop failed gaveUp p)
    (stops : ∀ a, gaveUp a → ∃ b, f a = done b ∧ gaveUp' b)
    (next : ∀ a, FailStop failed gaveUp' (f a)) : FailStop failed gaveUp' (p >>= f) := by
  induction p with
  | done a => exact next a
  | call c more ih =>
      intro r
      refine ⟨fun failure => ?_, ih r (h r).2⟩
      obtain ⟨a, finished, given⟩ := (h r).1 failure
      obtain ⟨b, stopped, given'⟩ := stops a given
      refine ⟨b, ?_, given'⟩
      show (more r >>= f) = done b
      rw [finished]
      exact stopped

/-- One call, and what is made of its reply. -/
theorem FailStop.issue {gaveUp : β → Prop} {c : Call} {f : Reply c → Program Reply β}
    (stops : ∀ r, failed c r → ∃ b, f r = done b ∧ gaveUp b)
    (next : ∀ r, FailStop failed gaveUp (f r)) :
    FailStop failed gaveUp (Program.issue c >>= f) := fun r => ⟨stops r, next r⟩

/-- An object whose `n`-th call is answered by the `n`-th of a stream of objects. -/
def withStream (stream : ℕ → Object Reply σ) : Object Reply (ℕ × σ) := fun s c =>
  ((stream s.1 s.2 c).1, s.1 + 1, (stream s.1 s.2 c).2)

theorem Simulates.withStream {τ : Type} {stream : ℕ → Object Reply σ}
    {spec : ℕ → Object Reply τ} {view : σ → τ} (sim : ∀ n, Simulates (stream n) (spec n) view) :
    Simulates (AtomicProgram.withStream stream) (AtomicProgram.withStream spec)
      (Prod.map id view) := by
  rintro ⟨n, s⟩ c
  simp only [AtomicProgram.withStream, Prod.map, id, sim n s c]

/-- Where a faulty object either answers as the ideal one or fails, a program
that gives up on failure does what it does on the ideal object, or is cut at
its first failed call. -/
theorem FailStop.exec_cut {gaveUp : α → Prop} {ideal : Object Reply σ}
    {faulty : ℕ → Object Reply σ} (agrees : ∀ n s c, faulty n s c = ideal s c ∨
      failed c (faulty n s c).1) {p : Program Reply α} (stops : FailStop failed gaveUp p)
    (n : ℕ) (s : σ) :
    ((events (withStream faulty) p (n, s)).map (Event.mapState Prod.snd) = events ideal p s ∧
        (exec (withStream faulty) p (n, s)).1 = (exec ideal p s).1) ∨
      ∃ done next rest, events ideal p s = done ++ next :: rest ∧
        ∃ m, failed next.call (faulty m next.before next.call).1 ∧
        (events (withStream faulty) p (n, s)).map (Event.mapState Prod.snd) =
          done ++ [eventAt (faulty m) next.before next.call] ∧
        gaveUp (exec (withStream faulty) p (n, s)).1 := by
  induction p generalizing n s with
  | done a => exact .inl ⟨rfl, rfl⟩
  | call c next ih =>
      rcases agrees n s c with same | failure
      · have answered : withStream faulty (n, s) c = ((ideal s c).1, n + 1, (ideal s c).2) := by
          simp only [withStream, same]
        have event : (eventAt (withStream faulty) (n, s) c).mapState Prod.snd =
            eventAt ideal s c := by
          simp only [eventAt, Event.mapState, answered]
        simp only [events_call, exec_call, List.map_cons, event, answered]
        rcases ih _ (stops _).2 (n + 1) (ideal s c).2 with ⟨run, result⟩ |
          ⟨before, cut, rest, run, m, failure, faultyRun, given⟩
        · exact .inl ⟨by rw [run], result⟩
        · exact .inr ⟨_ :: before, cut, rest, by rw [run]; rfl, m, failure, by rw [faultyRun]; rfl,
            given⟩
      · obtain ⟨a, finished, given⟩ := (stops _).1 failure
        refine .inr ⟨[], eventAt ideal s c, _, rfl, n, failure, ?_, ?_⟩
        · rw [events_call]
          have : next (withStream faulty (n, s) c).1 = done a := finished
          rw [this]
          rfl
        · rw [exec_call]
          have : next (withStream faulty (n, s) c).1 = done a := finished
          rw [this]
          exact given

end FailStop

/-! ### Interleaving -/

section Interleaving

variable {ι σ : Type} [DecidableEq ι] {α : ι → Type} (obj : Object Reply σ)

/-- Programs running beside each other, one for each thread. -/
abbrev Pool (Reply : Call → Type) (α : ι → Type) := (i : ι) → Program Reply (α i)

/-- The results of a program and of the programs beside it. -/
abbrev Beside {κ : Type} (A : Type) (β : κ → Type) : Option κ → Type
  | none => A
  | some k => β k

/-- One program beside others. -/
def beside {κ A : Type} {β : κ → Type} (p : Program Reply A) (others : Pool Reply β) :
    Pool Reply (Beside A β)
  | none => p
  | some k => others k

/-- Let thread `i` perform its next call; a finished thread does nothing. -/
def stepPool (i : ι) (s : σ) (pool : Pool Reply α) :
    Option (Event Reply σ) × σ × Pool Reply α :=
  match pool i with
  | done _ => (none, s, pool)
  | call c next =>
      (some (eventAt obj s c), (obj s c).2, Function.update pool i (next (obj s c).1))

/-- Run a pool under a schedule: the threads' calls in the order they happen,
with the final state and what remains of every program. -/
def runPool : List ι → σ → Pool Reply α → List (ι × Event Reply σ) × σ × Pool Reply α
  | [], s, pool => ([], s, pool)
  | i :: rest, s, pool =>
      let stepped := stepPool obj i s pool
      let final := runPool rest stepped.2.1 stepped.2.2
      (stepped.1.toList.map (i, ·) ++ final.1, final.2)

/-- What thread `i` does when it is scheduled. -/
theorem stepPool_self (i : ι) (s : σ) (pool : Pool Reply α) :
    (∃ a, pool i = done a ∧ stepPool obj i s pool = (none, s, pool)) ∨
    (∃ c next, pool i = call c next ∧ stepPool obj i s pool =
      (some (eventAt obj s c), (obj s c).2, Function.update pool i (next (obj s c).1))) := by
  unfold stepPool
  cases h : pool i with
  | done a => exact .inl ⟨a, rfl, rfl⟩
  | call c next => exact .inr ⟨c, next, rfl, rfl⟩

/-- The calls of a pool happen one after another on the one object. -/
theorem runPool_linked (schedule : List ι) (s : σ) (pool : Pool Reply α) :
    Linked s ((runPool obj schedule s pool).1.map Prod.snd) (runPool obj schedule s pool).2.1 := by
  induction schedule generalizing s pool with
  | nil => rfl
  | cons i rest ih =>
      rcases stepPool_self obj i s pool with ⟨a, -, stepped⟩ | ⟨c, next, -, stepped⟩
      · simp only [runPool, stepped, Option.toList_none, List.map_nil, List.nil_append]
        exact ih s pool
      · simp only [runPool, stepped, Option.toList_some, List.map_cons, List.map_nil,
          List.singleton_append]
        exact ⟨rfl, ih _ _⟩

/-- Every call of a pool is a step of the object. -/
theorem runPool_step (schedule : List ι) (s : σ) (pool : Pool Reply α) :
    ∀ e ∈ (runPool obj schedule s pool).1, e.2 = eventAt obj e.2.before e.2.call := by
  induction schedule generalizing s pool with
  | nil => simp [runPool]
  | cons i rest ih =>
      rcases stepPool_self obj i s pool with ⟨a, -, stepped⟩ | ⟨c, next, -, stepped⟩
      · simp only [runPool, stepped, Option.toList_none, List.map_nil, List.nil_append]
        exact ih s pool
      · simp only [runPool, stepped, Option.toList_some, List.map_cons, List.map_nil,
          List.singleton_append]
        intro e he
        rcases List.mem_cons.mp he with rfl | he
        · rfl
        · exact ih _ _ e he

/-- What one thread of a pool called, in order. -/
def ownLog (i : ι) (trace : List (ι × Event Reply σ)) : Log Reply σ :=
  (trace.filter (·.1 = i)).map Prod.snd

@[simp] theorem ownLog_nil (i : ι) : ownLog i ([] : List (ι × Event Reply σ)) = [] := rfl

theorem ownLog_cons_self (i : ι) (e : Event Reply σ) (trace : List (ι × Event Reply σ)) :
    ownLog i ((i, e) :: trace) = e :: ownLog i trace := by
  simp [ownLog]

theorem ownLog_cons_of_ne {i j : ι} (h : j ≠ i) (e : Event Reply σ)
    (trace : List (ι × Event Reply σ)) : ownLog i ((j, e) :: trace) = ownLog i trace := by
  simp [ownLog, h]

/-- Soundness for a thread of a pool, whatever the others do. -/
theorem Meets.runPool {τ : Type} {obj : Object Reply τ} (view : τ → σ)
    {rely : Log Reply σ → Event Reply σ → Prop} {i : ι} {post : α i → Log Reply σ → Prop}
    {schedule : List ι} {s : τ} {pool : Pool Reply α} {log : Log Reply σ}
    (h : Meets rely post (pool i) log)
    (answers : Along rely log
      ((ownLog i (runPool obj schedule s pool).1).map (Event.mapState view))) :
    Meets rely post ((AtomicProgram.runPool obj schedule s pool).2.2 i)
      (log ++ (ownLog i (AtomicProgram.runPool obj schedule s pool).1).map
        (Event.mapState view)) := by
  induction schedule generalizing s pool log with
  | nil =>
      rw [AtomicProgram.runPool, ownLog_nil, List.map_nil, List.append_nil]
      exact h
  | cons j rest ih =>
      rcases stepPool_self obj j s pool with ⟨a, -, stepped⟩ | ⟨c, next, atJ, stepped⟩
      · simp only [AtomicProgram.runPool, stepped, Option.toList_none, List.map_nil,
          List.nil_append] at answers ⊢
        exact ih h answers
      · simp only [AtomicProgram.runPool, stepped, Option.toList_some, List.map_cons,
          List.map_nil, List.singleton_append] at answers ⊢
        by_cases own : j = i
        · subst own
          rw [ownLog_cons_self, List.map_cons] at answers ⊢
          rw [atJ] at h
          have meets : Meets rely post (Function.update pool j (next (obj s c).1) j)
              (log ++ [(eventAt obj s c).mapState view]) := by
            rw [Function.update_self]
            exact h _ _ _ answers.1
          have final := ih meets answers.2
          rwa [List.append_assoc, List.singleton_append] at final
        · rw [ownLog_cons_of_ne own] at answers ⊢
          have meets : Meets rely post (Function.update pool j (next (obj s c).1) i) log := by
            rw [Function.update_of_ne (Ne.symm own)]
            exact h
          exact ih meets answers

/-- A thread that was not scheduled to its end can still be run to it, alone. -/
theorem Meets.completed {τ : Type} {obj : Object Reply τ} (view : τ → σ)
    {rely : Log Reply σ → Event Reply σ → Prop} {i : ι} {post : α i → Log Reply σ → Prop}
    {schedule : List ι} {s : τ} {pool : Pool Reply α} (h : Meets rely post (pool i) [])
    (answers : let final := (AtomicProgram.runPool obj schedule s pool).2
      Along rely [] ((ownLog i (AtomicProgram.runPool obj schedule s pool).1 ++
        events obj (final.2 i) final.1).map (Event.mapState view))) :
    let final := (AtomicProgram.runPool obj schedule s pool).2
    post (AtomicProgram.exec obj (final.2 i) final.1).1
      ((ownLog i (AtomicProgram.runPool obj schedule s pool).1 ++
        events obj (final.2 i) final.1).map (Event.mapState view)) := by
  dsimp only at answers ⊢
  rw [List.map_append] at answers ⊢
  obtain ⟨first, second⟩ := along_append.mp answers
  exact (h.runPool view first).exec view second

/-- Where in the trace a thread's own calls happened. -/
theorem ownLog_eq_append_cons {i : ι} {e : Event Reply σ} {trace : List (ι × Event Reply σ)}
    {first rest : Log Reply σ} (h : ownLog i trace = first ++ e :: rest) :
    ∃ before after, trace = before ++ (i, e) :: after ∧ ownLog i before = first ∧
      ownLog i after = rest := by
  obtain ⟨head, tail, split, rfl, mapped⟩ := List.map_eq_append_iff.mp h
  obtain ⟨⟨j, event⟩, tail, rfl, rfl, rfl⟩ := List.map_eq_cons_iff.mp mapped
  obtain ⟨before, after, rfl, rfl, kept⟩ := List.filter_eq_append_iff.mp split
  obtain ⟨skipped, after, rfl, others, own, rfl⟩ := List.filter_eq_cons_iff.mp kept
  obtain rfl : j = i := by simpa using own
  refine ⟨before ++ skipped, after, by rw [List.append_assoc], ?_, rfl⟩
  rw [ownLog, List.filter_append, List.filter_eq_nil_iff.mpr others, List.append_nil]

theorem mem_ownLog {i : ι} {e : Event Reply σ} {trace : List (ι × Event Reply σ)} :
    e ∈ ownLog i trace ↔ (i, e) ∈ trace := by
  simp [ownLog]

theorem Simulates.runPool {τ : Type} {obj : Object Reply σ} {spec : Object Reply τ}
    {view : σ → τ} (sim : Simulates obj spec view) (schedule : List ι) (s : σ)
    (pool : Pool Reply α) :
    AtomicProgram.runPool spec schedule (view s) pool =
      ((AtomicProgram.runPool obj schedule s pool).1.map fun e => (e.1, e.2.mapState view),
        view (AtomicProgram.runPool obj schedule s pool).2.1,
        (AtomicProgram.runPool obj schedule s pool).2.2) := by
  induction schedule generalizing s pool with
  | nil => rfl
  | cons i rest ih =>
      rcases stepPool_self obj i s pool with ⟨a, finished, stepped⟩ | ⟨c, next, atI, stepped⟩
      · have stepped' : stepPool spec i (view s) pool = (none, view s, pool) := by
          simp only [stepPool, finished]
        simp only [AtomicProgram.runPool, stepped, stepped', ih, Option.toList_none,
          List.map_nil, List.nil_append]
      · have stepped' : stepPool spec i (view s) pool =
            (some ((AtomicProgram.eventAt obj s c).mapState view), view (obj s c).2,
              Function.update pool i (next (obj s c).1)) := by
          simp only [stepPool, atI, sim.eventAt, sim s c]
        simp only [AtomicProgram.runPool, stepped, stepped', ih, Option.toList_some,
          List.map_cons, List.map_nil, List.singleton_append]

end Interleaving

end AtomicProgram
