/-
The discrete-event simulation engine (`simulator/engine.py`, `simulator/clock.py`): scheduled commands, one rail
adapter, the ledger, the entity states and the emitted event log.

An engine operation is a computation in `EStateM SimError (Engine κ σ α)`: what it wrote before raising stays written.
`κ` is the adapter's commands, `σ` its entity states, `α` the state the adapter object keeps for itself. An operation
that raises marks the engine failed, and a failed engine refuses every later operation.

A caller schedules commands and runs the engine, in any order (`EngineCall`); `run turns until` is the state after at
most `turns` turns of the loop of `run(until)`, so the calls reach every state a run passes through.

- `dispatch_spec`: one turn of the loop is one `handle` and one `appendBatch`.
- `calls_inv`: an invariant of the books that `handle` + `appendBatch` keeps holds in every healthy state reached.
- `uuidAt_inj`: the identifiers one engine issues are pairwise distinct.

Not modelled: the random generator (the rails draw nothing from it but the UUID prefix), the callback scopes that keep
an adapter from using its context after it returned, and the deep copies at ownership boundaries.
-/
import Mathlib.Data.Prod.Lex
import Mathlib.Data.String.Basic
import Apar.Core.Queue
import Apar.Simulator.Ledger

namespace Apar

open Exec

/-! ## The clock -/

structure ScheduledCommand (κ : Type) where
  dueAt : Time
  priority : ℤ
  sequence : ℕ
  command : κ

namespace ScheduledCommand

/-- the heap order: time, priority, insertion -/
def before {κ : Type} (a b : ScheduledCommand κ) : Bool :=
  a.dueAt < b.dueAt || (a.dueAt == b.dueAt && (a.priority < b.priority ||
    (a.priority == b.priority && a.sequence < b.sequence)))

end ScheduledCommand

structure SimulationClock (κ : Type) where
  now : Time
  sequence : ℕ
  queue : List (ScheduledCommand κ)

namespace SimulationClock

variable {κ : Type}

def schedule (c : SimulationClock κ) (dueAt : Time) (priority : ℤ) (command : κ) :
    Except SimError (SimulationClock κ) :=
  if dueAt < c.now then .error (.valueError "cannot schedule earlier than the current simulation time")
  else .ok { c with
    sequence := c.sequence + 1
    queue := heapPush ScheduledCommand.before ⟨dueAt, priority, c.sequence, command⟩ c.queue }

/-- pop the next command and advance the time to it; `none` is an empty queue -/
def pop (c : SimulationClock κ) : Option (ScheduledCommand κ × SimulationClock κ) :=
  match c.queue with
  | [] => none
  | scheduled :: rest => some (scheduled, { c with now := scheduled.dueAt, queue := rest })

end SimulationClock

/-! ## The engine -/

structure Engine (κ σ α : Type) where
  rail : Rail
  viewpoint : String
  uuidPrefix : ℕ
  uuidSequence : ℕ
  clock : SimulationClock κ
  ledger : Ledger
  adapter : α
  entityState : Dict String σ
  events : List PaymentEvent
  seenEventIds : List String
  scheduledTimes : List Time
  initialized : Bool
  failure : Option SimError

abbrev EngineM (κ σ α : Type) := EStateM SimError (Engine κ σ α)

structure RailAdapter (κ σ α : Type) where
  init : EngineM κ σ α Unit
  handle : κ → EngineM κ σ α (List PaymentEvent)

/-- `_event_key` -/
def eventKey (e : PaymentEvent) : Time ×ₗ String := toLex (e.eventTime, e.eventId)

namespace Engine

variable {κ σ α β : Type}

/-- the ten random bytes of the UUID prefix, with the version and variant bits set: four fields around bytes 6 and 8 -/
def versionedPrefix (head b6 b7 b8 b9 : ℕ) : ℕ :=
  (((head % 2 ^ 48 * 256 + (b6 % 16 + 64)) * 256 + b7 % 256) * 256 + (b8 % 64 + 128)) * 256 + b9 % 256

/-- `_mark_failed` -/
def markFailed (s : Engine κ σ α) (e : SimError) : Engine κ σ α := { s with failure := s.failure <|> some e }

/-- `_ensure_healthy` before an operation that marks the engine failed when it raises -/
def guarded (act : EngineM κ σ α β) : EngineM κ σ α β := fun s =>
  match s.failure with
  | some _ => .error .failed s
  | none =>
    match act s with
    | .ok b s' => .ok b s'
    | .error e s' => .error e (s'.markFailed e)

/-- `schedule(at, priority, command)` -/
def schedule (dueAt : Time) (priority : ℤ) (command : κ) : EngineM κ σ α Unit := guarded do
  let s ← get
  let clock ← raising (s.clock.schedule dueAt priority command)
  set { s with clock := clock, scheduledTimes := heapPush (fun a b => decide (a < b)) dueAt s.scheduledTimes }

/-- `post(entry)` -/
def post (ctx : DecimalContext) (entry : LedgerEntry) : EngineM κ σ α Unit := guarded do
  let s ← get
  let ledger ← raising (s.ledger.post ctx entry)
  set { s with ledger := ledger }

/-- `entity_state(entity_id)`; `none` is the `KeyError` its callers catch -/
def entityState? (entityId : String) : EngineM κ σ α (Option σ) := do
  let s ← get
  guard s.failure.isNone .failed
  return s.entityState.get? entityId

/-- `set_entity_state(entity_id, state)` -/
def setEntityState (entityId : String) (state : σ) : EngineM κ σ α Unit := guarded do
  let s ← get
  guard (entityId ≠ "") (.valueError "entity_id must not be empty")
  set { s with entityState := s.entityState.set entityId state }

/-- the identifier issued at a sequence number -/
def uuidAt (uuidPrefix uuidSequence : ℕ) : String := Uuid.formatUuid (uuidPrefix * 2 ^ 48 + uuidSequence)

/-- `new_uuid()` -/
def newUuid : EngineM κ σ α String := guarded do
  let s ← get
  guard (s.uuidSequence < 2 ^ 48) (.overflowError "deterministic UUID sequence exhausted")
  set { s with uuidSequence := s.uuidSequence + 1 }
  return uuidAt s.uuidPrefix s.uuidSequence

/-- the checks `_append_batch` makes on one candidate after the events before it in the batch -/
def checkCandidate (s : Engine κ σ α) (batchIds : List String) (e : PaymentEvent) : Except SimError Unit := do
  e.validate
  check (e.rail = s.rail) (.valueError "event rail must match scenario rail")
  check (e.eventTime = s.clock.now) (.valueError "event_time must equal simulation time")
  check (!s.seenEventIds.contains e.eventId && !batchIds.contains e.eventId)
    (.valueError ("duplicate event_id: " ++ e.eventId))

def checkBatch (s : Engine κ σ α) : List String → List PaymentEvent → Except SimError Unit
  | _, [] => .ok ()
  | batchIds, e :: rest => do
    checkCandidate s batchIds e
    checkBatch s (e.eventId :: batchIds) rest

/-- `_append_batch(candidates)` -/
def appendBatch (candidates : List PaymentEvent) : EngineM κ σ α Unit := do
  let s ← get
  raising (checkBatch s [] candidates)
  let validated := candidates.insertionSort fun a b => eventKey a ≤ eventKey b
  let inOrder : Bool :=
    match validated.head?, s.events.getLast? with
    | some first, some last => decide (eventKey last ≤ eventKey first)
    | _, _ => true
  guard inOrder (.valueError "event ordering must be canonical")
  set { s with
    events := s.events ++ validated
    seenEventIds := candidates.map PaymentEvent.eventId ++ s.seenEventIds }

/-- one turn of the loop: pop the due command, hand it to the adapter, append what it emits -/
def dispatch (A : RailAdapter κ σ α) (expectedAt : Time) (times : List Time) : EngineM κ σ α Unit := do
  modify fun s => { s with scheduledTimes := times }
  let s ← get
  match s.clock.pop with
  | none => throw (.valueError "simulation event queue is empty")
  | some (scheduled, clock) =>
    set { s with clock := clock }
    guard (scheduled.dueAt = expectedAt) (.assertionError "simulation clock and due-time index diverged")
    let emitted ← A.handle scheduled.command
    appendBatch emitted

/-- a due time at or before the cutoff -/
def isDue (cutoff : Option Time) (t : Time) : Bool := cutoff.all fun u => decide (t ≤ u)

/-- at most `turns` turns of the loop of `run` -/
def runLoop (A : RailAdapter κ σ α) (cutoff : Option Time) : ℕ → EngineM κ σ α Unit
  | 0 => pure ()
  | turns + 1 => do
    let s ← get
    match s.scheduledTimes with
    | [] => pure ()
    | t :: times => if isDue cutoff t then do dispatch A t times; runLoop A cutoff turns else pure ()

/-- `initialize`, before the first turn only -/
def initializeOnce (A : RailAdapter κ σ α) : EngineM κ σ α Unit := do
  let s ← get
  if s.initialized then pure ()
  else do
    A.init
    modify fun s => { s with initialized := true }

/-- `run(until)`, stopped after at most `turns` turns of its loop -/
def run (A : RailAdapter κ σ α) (turns : ℕ) (cutoff : Option Time) : EngineM κ σ α Unit := do
  let s ← get
  guard s.failure.isNone .failed
  -- this refusal alone does not fail the engine
  guard (cutoff.all fun u => decide (s.clock.now ≤ u))
    (.valueError "simulation cutoff cannot precede current simulation time")
  guarded do
    initializeOnce A
    runLoop A cutoff turns

/-- what a caller of the engine does -/
inductive EngineCall (κ : Type) where
  | schedule (dueAt : Time) (priority : ℤ) (command : κ)
  | run (turns : ℕ) (cutoff : Option Time)

def call (A : RailAdapter κ σ α) : EngineCall κ → EngineM κ σ α Unit
  | .schedule dueAt priority command => schedule dueAt priority command
  | .run turns cutoff => run A turns cutoff

/-- the engine after a call, whether it returned or raised -/
def afterCall (A : RailAdapter κ σ α) (s : Engine κ σ α) (c : EngineCall κ) : Engine κ σ α :=
  match call A c s with
  | .ok _ s' => s'
  | .error _ s' => s'

def afterCalls (A : RailAdapter κ σ α) (s : Engine κ σ α) (calls : List (EngineCall κ)) : Engine κ σ α :=
  calls.foldl (afterCall A) s

/-- `SimulationEngine(bundle, factories, opening_balances=..., allow_credit=...)` once the ledger is built -/
def fresh (rail : Rail) (viewpoint : String) (uuidPrefix : ℕ) (start : Time) (ledger : Ledger) (adapter : α) :
    Engine κ σ α where
  rail := rail
  viewpoint := viewpoint
  uuidPrefix := uuidPrefix
  uuidSequence := 0
  clock := ⟨start, 0, []⟩
  ledger := ledger
  adapter := adapter
  entityState := ∅
  events := []
  seenEventIds := []
  scheduledTimes := []
  initialized := false
  failure := none

/-! ## Successful operations -/

variable {s s' : Engine κ σ α} {A : RailAdapter κ σ α}

theorem guarded_eq_ok {act : EngineM κ σ α β} {b : β} :
    guarded act s = .ok b s' ↔ s.failure = none ∧ act s = .ok b s' := by
  unfold guarded
  cases s.failure with
  | some e => simp
  | none =>
    cases act s with
    | ok b' t => simp
    | error e t => simp

theorem post_eq_ok {ctx : DecimalContext} {entry : LedgerEntry} {u : Unit} :
    post ctx entry s = .ok u s' ↔
      s.failure = none ∧ ∃ ledger, s.ledger.post ctx entry = .ok ledger ∧ s' = { s with ledger := ledger } := by
  simp only [post, guarded_eq_ok, bind_eq_ok, get_eq_ok, raising_eq_ok, set_eq_ok]
  constructor
  · rintro ⟨hs, _, _, ⟨rfl, rfl⟩, ledger, _, ⟨hpost, rfl⟩, rfl⟩
    exact ⟨hs, ledger, hpost, rfl⟩
  · rintro ⟨hs, ledger, hpost, rfl⟩
    exact ⟨hs, s, s, ⟨rfl, rfl⟩, ledger, s, ⟨hpost, rfl⟩, rfl⟩

theorem entityState?_eq_ok {entityId : String} {r : Option σ} :
    entityState? entityId s = .ok r s' ↔ s.failure = none ∧ s' = s ∧ r = s.entityState.get? entityId := by
  simp only [entityState?, bind_eq_ok, get_eq_ok, guard_eq_ok, pure_eq_ok, Option.isNone_iff_eq_none]
  constructor
  · rintro ⟨_, _, ⟨rfl, rfl⟩, _, _, ⟨hs, rfl⟩, rfl, rfl⟩
    exact ⟨hs, rfl, rfl⟩
  · rintro ⟨hs, rfl, rfl⟩
    exact ⟨s', s', ⟨rfl, rfl⟩, (), s', ⟨hs, rfl⟩, rfl, rfl⟩

theorem setEntityState_eq_ok {entityId : String} {state : σ} {u : Unit} :
    setEntityState entityId state s = .ok u s' ↔
      s.failure = none ∧ entityId ≠ "" ∧ s' = { s with entityState := s.entityState.set entityId state } := by
  simp only [setEntityState, guarded_eq_ok, bind_eq_ok, get_eq_ok, guard_eq_ok, set_eq_ok, decide_eq_true_eq]
  constructor
  · rintro ⟨hs, _, _, ⟨rfl, rfl⟩, _, _, ⟨hid, rfl⟩, rfl⟩
    exact ⟨hs, hid, rfl⟩
  · rintro ⟨hs, hid, rfl⟩
    exact ⟨hs, s, s, ⟨rfl, rfl⟩, (), s, ⟨hid, rfl⟩, rfl⟩

theorem newUuid_eq_ok {eventId : String} :
    newUuid s = .ok eventId s' ↔
      s.failure = none ∧ s.uuidSequence < 2 ^ 48 ∧ eventId = uuidAt s.uuidPrefix s.uuidSequence ∧
        s' = { s with uuidSequence := s.uuidSequence + 1 } := by
  simp only [newUuid, guarded_eq_ok, bind_eq_ok, get_eq_ok, guard_eq_ok, set_eq_ok, pure_eq_ok, decide_eq_true_eq]
  constructor
  · rintro ⟨hs, _, _, ⟨rfl, rfl⟩, _, _, ⟨hseq, rfl⟩, _, _, rfl, rfl, rfl⟩
    exact ⟨hs, hseq, rfl, rfl⟩
  · rintro ⟨hs, hseq, rfl, rfl⟩
    exact ⟨hs, s, s, ⟨rfl, rfl⟩, (), s, ⟨hseq, rfl⟩, ⟨⟩, _, rfl, rfl, rfl⟩

/-! ## Runs -/

theorem appendBatch_spec {candidates : List PaymentEvent} {u : Unit} (h : appendBatch candidates s = .ok u s') :
    checkBatch s [] candidates = .ok () ∧
      (∀ first ∈ (candidates.insertionSort fun a b => eventKey a ≤ eventKey b).head?, ∀ last ∈ s.events.getLast?,
        eventKey last ≤ eventKey first) ∧
      s' = { s with
        events := s.events ++ candidates.insertionSort fun a b => eventKey a ≤ eventKey b
        seenEventIds := candidates.map PaymentEvent.eventId ++ s.seenEventIds } := by
  simp only [appendBatch, bind_eq_ok, get_eq_ok, raising_eq_ok, guard_eq_ok, set_eq_ok] at h
  obtain ⟨_, _, ⟨rfl, rfl⟩, _, _, ⟨hcheck, rfl⟩, _, _, ⟨horder, rfl⟩, rfl⟩ := h
  refine ⟨hcheck, ?_, rfl⟩
  intro first hfirst last hlast
  rw [Option.mem_def] at hfirst hlast
  simpa [hfirst, hlast] using horder

/-- **One turn of the loop.** The popped command goes to the adapter at the time it was due, and what the adapter emits
is appended. -/
theorem dispatch_spec {expectedAt : Time} {times : List Time} {u : Unit} (h : dispatch A expectedAt times s = .ok u s')
    :
    ∃ scheduled clock emitted s₁, s.clock.pop = some (scheduled, clock) ∧ scheduled.dueAt = expectedAt ∧
      A.handle scheduled.command { s with scheduledTimes := times, clock := clock } = .ok emitted s₁ ∧
      appendBatch emitted s₁ = .ok () s' := by
  have hmod : ∀ f : Engine κ σ α → Engine κ σ α, (modify f : EngineM κ σ α PUnit) s = .ok ⟨⟩ (f s) := fun _ => rfl
  simp only [dispatch, bind_eq_ok, hmod, get_eq_ok, EStateM.Result.ok.injEq] at h
  obtain ⟨_, _, ⟨-, rfl⟩, _, _, ⟨rfl, rfl⟩, h⟩ := h
  simp only at h
  cases hpop : s.clock.pop with
  | none => simp [hpop] at h
  | some p =>
    obtain ⟨scheduled, clock⟩ := p
    simp only [hpop, bind_eq_ok, set_eq_ok, guard_eq_ok, decide_eq_true_eq] at h
    obtain ⟨_, _, rfl, _, _, ⟨hdue, rfl⟩, emitted, s₁, hhandle, happend⟩ := h
    exact ⟨scheduled, clock, emitted, s₁, rfl, hdue, hhandle, happend⟩

/-- only the schedule and the flags of a run differ -/
def SameBooks (s s' : Engine κ σ α) : Prop :=
  s' = { s with clock := s'.clock, scheduledTimes := s'.scheduledTimes, initialized := s'.initialized }

/-- an invariant of the books that scheduling, initialisation and every turn keep -/
structure Preserved (A : RailAdapter κ σ α) (P : Engine κ σ α → Prop) : Prop where
  books : ∀ {s s'}, P s → SameBooks s s' → P s'
  init : ∀ {s s' u}, P s → A.init s = .ok u s' → P s'
  turn : ∀ {s s₁ s' command emitted}, P s → A.handle command s = .ok emitted s₁ →
    appendBatch emitted s₁ = .ok () s' → P s'

section Preserved

variable {A : RailAdapter κ σ α} {P : Engine κ σ α → Prop}

theorem Preserved.dispatch (hP : Preserved A P) {expectedAt : Time} {times : List Time} {s s' : Engine κ σ α}
    {u : Unit} (hs : P s) (h : dispatch A expectedAt times s = .ok u s') : P s' := by
  obtain ⟨scheduled, clock, emitted, s₁, -, -, hhandle, happend⟩ := dispatch_spec h
  have hbooks : SameBooks s { s with scheduledTimes := times, clock := clock } := rfl
  exact hP.turn (hP.books hs hbooks) hhandle happend

theorem Preserved.initializeOnce (hP : Preserved A P) {s s' : Engine κ σ α} {u : Unit} (hs : P s)
    (h : initializeOnce A s = .ok u s') : P s' := by
  simp only [Engine.initializeOnce, bind_eq_ok, get_eq_ok] at h
  obtain ⟨_, _, ⟨rfl, rfl⟩, h⟩ := h
  split_ifs at h with hdone
  · rw [pure_eq_ok] at h
    exact h.2 ▸ hs
  · obtain ⟨_, s₁, hinit, hflag⟩ := bind_eq_ok.1 h
    rw [modify_eq_ok] at hflag
    exact hP.books (hP.init hs hinit) (hflag ▸ rfl)

theorem Preserved.runLoop (hP : Preserved A P) {cutoff : Option Time} {turns : ℕ} {s s' : Engine κ σ α} {u : Unit}
    (hs : P s) (h : runLoop A cutoff turns s = .ok u s') : P s' := by
  induction turns generalizing s with
  | zero =>
    simp only [Engine.runLoop, pure_eq_ok] at h
    exact h.2 ▸ hs
  | succ turns ih =>
    simp only [Engine.runLoop, bind_eq_ok, get_eq_ok] at h
    obtain ⟨_, _, ⟨rfl, rfl⟩, h⟩ := h
    cases htimes : s.scheduledTimes with
    | nil =>
      simp only [htimes, pure_eq_ok] at h
      exact h.2 ▸ hs
    | cons t times =>
      simp only [htimes] at h
      split_ifs at h with hdue
      · obtain ⟨_, s₁, hdispatch, hrest⟩ := bind_eq_ok.1 h
        exact ih (hP.dispatch hs hdispatch) hrest
      · rw [pure_eq_ok] at h
        exact h.2 ▸ hs

theorem Preserved.run (hP : Preserved A P) {cutoff : Option Time} {turns : ℕ} {s s' : Engine κ σ α} {u : Unit}
    (hs : P s) (h : run A turns cutoff s = .ok u s') : P s' := by
  simp only [Engine.run, bind_eq_ok, get_eq_ok, guard_eq_ok, guarded_eq_ok] at h
  obtain ⟨_, _, ⟨rfl, rfl⟩, _, _, ⟨-, rfl⟩, _, _, ⟨-, rfl⟩, -, _, s₁, hinit, hloop⟩ := h
  exact hP.runLoop (hP.initializeOnce hs hinit) hloop

theorem Preserved.schedule (hP : Preserved A P) {dueAt : Time} {priority : ℤ} {command : κ} {s s' : Engine κ σ α}
    {u : Unit} (hs : P s) (h : schedule dueAt priority command s = .ok u s') : P s' := by
  simp only [Engine.schedule, guarded_eq_ok, bind_eq_ok, get_eq_ok, raising_eq_ok, set_eq_ok] at h
  obtain ⟨-, _, _, ⟨rfl, rfl⟩, clock, _, ⟨-, rfl⟩, rfl⟩ := h
  exact hP.books hs rfl

theorem Preserved.call (hP : Preserved A P) {c : EngineCall κ} {s s' : Engine κ σ α} {u : Unit} (hs : P s)
    (h : call A c s = .ok u s') : P s' := by
  cases c with
  | schedule dueAt priority command => exact hP.schedule hs h
  | run turns cutoff => exact hP.run hs h

end Preserved

theorem guarded_error {act : EngineM κ σ α β} {e : SimError} (h : guarded act s = .error e s') (hs : s'.failure = none)
    : s' = s := by
  unfold guarded at h
  cases hf : s.failure with
  | some _ =>
    simp only [hf, EStateM.Result.error.injEq] at h
    exact h.2.symm
  | none =>
    cases hact : act s with
    | ok b t => simp [hf, hact] at h
    | error e' t =>
      simp only [hf, hact, EStateM.Result.error.injEq] at h
      obtain ⟨-, rfl⟩ := h
      cases ht : t.failure with
      | none => simp [markFailed, ht] at hs
      | some _ => simp [markFailed, ht] at hs

/-- a call that raises without failing the engine changes nothing -/
theorem call_error {c : EngineCall κ} {e : SimError} (h : call A c s = .error e s') (hs : s'.failure = none) :
    s' = s := by
  cases c with
  | schedule dueAt priority command => exact guarded_error h hs
  | run turns cutoff =>
    simp only [call, run, bind_eq_error, get_eq_error, get_eq_ok, guard_eq_error, guard_eq_ok, false_or] at h
    obtain ⟨_, _, ⟨rfl, rfl⟩, ⟨-, -, rfl⟩ | ⟨_, _, ⟨-, rfl⟩, ⟨-, -, rfl⟩ | ⟨_, _, ⟨-, rfl⟩, h⟩⟩⟩ := h
    · rfl
    · rfl
    · exact guarded_error h hs

theorem afterCall_failed (c : EngineCall κ) (hs : s.failure ≠ none) : afterCall A s c = s := by
  obtain ⟨e, he⟩ := Option.ne_none_iff_exists'.1 hs
  have hcall : call A c s = .error .failed s := by
    cases c with
    | schedule dueAt priority command => simp [call, schedule, guarded, he]
    | run turns cutoff =>
      simp only [call, run, bind_eq_error, get_eq_error, get_eq_ok, guard_eq_error, false_or]
      exact ⟨s, s, ⟨rfl, rfl⟩, .inl (by simp [he])⟩
  simp [afterCall, hcall]

theorem afterCall_inv {P : Engine κ σ α → Prop} (hP : Preserved A P) (c : EngineCall κ) (hs : P s)
    (hf : (afterCall A s c).failure = none) : P (afterCall A s c) := by
  unfold afterCall at *
  cases hcall : call A c s with
  | ok u s' => exact hP.call hs hcall
  | error e s' =>
    simp only [hcall] at hf ⊢
    exact call_error hcall hf ▸ hs

theorem afterCalls_failed (calls : List (EngineCall κ)) (hs : s.failure ≠ none) : afterCalls A s calls = s := by
  unfold afterCalls
  induction calls with
  | nil => rfl
  | cons c rest ih =>
    rw [List.foldl_cons, afterCall_failed c hs]
    exact ih

/-- **Invariants over runs.** What `handle` and `appendBatch` keep holds in every healthy state that any calls reach. -/
theorem calls_inv {P : Engine κ σ α → Prop} (hP : Preserved A P) (calls : List (EngineCall κ)) (hs : P s)
    (hf : (afterCalls A s calls).failure = none) : P (afterCalls A s calls) := by
  induction calls generalizing s with
  | nil => exact hs
  | cons c rest ih =>
    change P (afterCalls A (afterCall A s c) rest)
    refine ih ?_ hf
    refine afterCall_inv hP c hs ?_
    by_contra hfail
    have hstuck := afterCalls_failed (A := A) rest hfail
    exact hfail (hstuck ▸ hf)

/-! ## Identifiers -/

theorem versionedPrefix_lt (head b6 b7 b8 b9 : ℕ) : versionedPrefix head b6 b7 b8 b9 < 2 ^ 80 := by
  unfold versionedPrefix
  have h0 := Nat.mod_lt head (show 0 < 2 ^ 48 by norm_num)
  have h6 := Nat.mod_lt b6 (show 0 < 16 by norm_num)
  have h7 := Nat.mod_lt b7 (show 0 < 256 by norm_num)
  have h8 := Nat.mod_lt b8 (show 0 < 64 by norm_num)
  have h9 := Nat.mod_lt b9 (show 0 < 256 by norm_num)
  omega

/-- **Issued identifiers are distinct.** -/
theorem uuidAt_inj {p m n : ℕ} (hp : p < 2 ^ 80) (hm : m < 2 ^ 48) (hn : n < 2 ^ 48) (h : uuidAt p m = uuidAt p n) :
    m = n := by
  have := Uuid.formatUuid_inj (by omega) (by omega) h
  omega

end Engine

end Apar
