/-
Failing engine operations (`_ensure_healthy`, `_mark_failed` in `simulator/engine.py`): what an operation that raises
leaves behind, and the state of refusal it leaves the engine in.

- `post_eq_error`, `setEntityState_eq_error`, `newUuid_eq_error`: an operation raises before it writes.
- `refuses`: a failed engine refuses every operation and stays as it is.
- `Enduring.calls`: what every callback keeps, returning or raising, holds in every engine any calls reach.
-/
import Apar.Simulator.EventLog

namespace Apar

open Exec

namespace Engine

variable {κ σ α β : Type} {s s' : Engine κ σ α} {e : SimError}

/-- `emit(event)` -/
def emit (event : PaymentEvent) : EngineM κ σ α Unit := guarded (appendBatch [event])

/-! ## Operations that raise -/

theorem guarded_eq_error {act : EngineM κ σ α β} : guarded act s = .error e s' ↔
    s.failure ≠ none ∧ e = .failed ∧ s' = s ∨
      s.failure = none ∧ ∃ t, act s = .error e t ∧ s' = t.markFailed e := by
  unfold guarded
  cases s.failure with
  | some e' => simp [eq_comm]
  | none =>
    cases act s with
    | ok b t => simp
    | error e' t =>
      simp only [EStateM.Result.error.injEq, ne_eq, not_true_eq_false, false_and, true_and, false_or]
      constructor
      · rintro ⟨rfl, rfl⟩
        exact ⟨t, ⟨rfl, rfl⟩, rfl⟩
      · rintro ⟨t', ⟨rfl, rfl⟩, rfl⟩
        exact ⟨rfl, rfl⟩

theorem entityState?_eq_error {entityId : String} :
    entityState? entityId s = .error e s' ↔ s.failure ≠ none ∧ e = .failed ∧ s' = s := by
  simp only [entityState?, bind_eq_error, get_eq_error, get_eq_ok, guard_eq_error, pure_eq_error, and_false,
    exists_false, or_false, false_or, Option.isNone_eq_false_iff, Option.isSome_iff_ne_none]
  constructor
  · rintro ⟨_, _, ⟨rfl, rfl⟩, hs, rfl, rfl⟩
    exact ⟨hs, rfl, rfl⟩
  · rintro ⟨hs, rfl, rfl⟩
    exact ⟨s', s', ⟨rfl, rfl⟩, hs, rfl, rfl⟩

theorem post_eq_error {ctx : DecimalContext} {entry : LedgerEntry} : post ctx entry s = .error e s' ↔
    s.failure ≠ none ∧ e = .failed ∧ s' = s ∨
      s.failure = none ∧ s.ledger.post ctx entry = .error e ∧ s' = s.markFailed e := by
  have hset : ∀ {t u : Engine κ σ α}, (set t : EngineM κ σ α PUnit) s = .error e u ↔ False := by
    intro t u
    change EStateM.Result.ok _ t = .error e u ↔ _
    simp
  simp only [post, guarded_eq_error, bind_eq_error, get_eq_error, get_eq_ok, raising_eq_error, false_or]
  constructor
  · rintro (h | ⟨hs, t, ⟨_, _, ⟨rfl, rfl⟩, ⟨hpost, rfl⟩ | ⟨ledger, u, h, hput⟩⟩, rfl⟩)
    · exact .inl h
    · exact .inr ⟨hs, hpost, rfl⟩
    · cases hput
  · rintro (h | ⟨hs, hpost, rfl⟩)
    · exact .inl h
    · exact .inr ⟨hs, s, ⟨s, s, ⟨rfl, rfl⟩, .inl ⟨hpost, rfl⟩⟩, rfl⟩

theorem setEntityState_eq_error {entityId : String} {state : σ} : setEntityState entityId state s = .error e s' ↔
    s.failure ≠ none ∧ e = .failed ∧ s' = s ∨
      s.failure = none ∧ entityId = "" ∧ e = .valueError "entity_id must not be empty" ∧ s' = s.markFailed e := by
  simp only [setEntityState, guarded_eq_error, bind_eq_error, get_eq_error, get_eq_ok, guard_eq_error, false_or,
    decide_eq_false_iff_not, not_not]
  constructor
  · rintro (h | ⟨hs, t, ⟨_, _, ⟨rfl, rfl⟩, ⟨hid, rfl, rfl⟩ | ⟨_, u, h, hput⟩⟩, rfl⟩)
    · exact .inl h
    · exact .inr ⟨hs, hid, rfl, rfl⟩
    · cases hput
  · rintro (h | ⟨hs, hid, rfl, rfl⟩)
    · exact .inl h
    · exact .inr ⟨hs, s, ⟨s, s, ⟨rfl, rfl⟩, .inl ⟨hid, rfl, rfl⟩⟩, rfl⟩

theorem newUuid_eq_error : newUuid s = .error e s' ↔
    s.failure ≠ none ∧ e = .failed ∧ s' = s ∨
      s.failure = none ∧ 2 ^ 48 ≤ s.uuidSequence ∧ e = .overflowError "deterministic UUID sequence exhausted" ∧
        s' = s.markFailed e := by
  simp only [newUuid, guarded_eq_error, bind_eq_error, get_eq_error, get_eq_ok, guard_eq_error, false_or,
    decide_eq_false_iff_not, not_lt]
  constructor
  · rintro (h | ⟨hs, t, ⟨_, _, ⟨rfl, rfl⟩, ⟨hseq, rfl, rfl⟩ | ⟨_, u, h, hput | ⟨_, _, h', hput⟩⟩⟩, rfl⟩)
    · exact .inl h
    · exact .inr ⟨hs, hseq, rfl, rfl⟩
    · cases hput
    · cases hput
  · rintro (h | ⟨hs, hseq, rfl, rfl⟩)
    · exact .inl h
    · exact .inr ⟨hs, s, ⟨s, s, ⟨rfl, rfl⟩, .inl ⟨hseq, rfl, rfl⟩⟩, rfl⟩

/-! ## Nothing written -/

/-- only identifiers were drawn, the failure mark set and the adapter's own state changed -/
structure Unwritten (s s' : Engine κ σ α) : Prop where
  rest : s' = { s with uuidSequence := s'.uuidSequence, failure := s'.failure, adapter := s'.adapter }
  drawn : s.uuidSequence ≤ s'.uuidSequence
  healthy : s'.failure = none → s.failure = none

theorem Unwritten.uuidPrefix (h : Unwritten s s') : s'.uuidPrefix = s.uuidPrefix := by rw [h.rest]

theorem Unwritten.ledger (h : Unwritten s s') : s'.ledger = s.ledger := by rw [h.rest]

theorem Unwritten.entityState (h : Unwritten s s') : s'.entityState = s.entityState := by rw [h.rest]

theorem Unwritten.events (h : Unwritten s s') : s'.events = s.events := by rw [h.rest]

theorem Unwritten.rfl (s : Engine κ σ α) : Unwritten s s := ⟨Eq.refl _, le_rfl, id⟩

theorem Unwritten.trans {t : Engine κ σ α} (h : Unwritten s t) (h' : Unwritten t s') : Unwritten s s' := by
  refine ⟨?_, h.drawn.trans h'.drawn, fun hs => h.healthy (h'.healthy hs)⟩
  have hrest := h'.rest
  rw [h.rest] at hrest
  exact hrest

instance : Std.Refl (Unwritten : Engine κ σ α → Engine κ σ α → Prop) := ⟨Unwritten.rfl⟩

instance : IsTrans (Engine κ σ α) Unwritten := ⟨fun _ _ _ => Unwritten.trans⟩

theorem Unwritten.markFailed (s : Engine κ σ α) (e : SimError) : Unwritten s (s.markFailed e) :=
  ⟨Eq.refl _, le_rfl, (touched_markFailed s e).failure⟩

theorem unwritten_entityState? (entityId : String) :
    Within Unwritten (entityState? entityId : EngineM κ σ α (Option σ)) :=
  Within.get.bind fun _ => (Within.guard _ _).bind fun _ => Within.pure _

theorem unwritten_newUuid : Within Unwritten (newUuid : EngineM κ σ α String) := by
  constructor
  · intro s a s' h
    obtain ⟨-, -, -, rfl⟩ := newUuid_eq_ok.1 h
    exact ⟨Eq.refl _, Nat.le_succ _, id⟩
  · intro s e s' h
    rcases newUuid_eq_error.1 h with ⟨-, -, rfl⟩ | ⟨-, -, -, rfl⟩
    · exact Unwritten.rfl _
    · exact Unwritten.markFailed s e

theorem post_failsWithin (ctx : DecimalContext) (entry : LedgerEntry) :
    FailsWithin Unwritten (post ctx entry : EngineM κ σ α Unit) := by
  intro s e s' h
  rcases post_eq_error.1 h with ⟨-, -, rfl⟩ | ⟨-, -, rfl⟩
  · exact Unwritten.rfl _
  · exact Unwritten.markFailed s e

theorem setEntityState_failsWithin (entityId : String) (state : σ) :
    FailsWithin Unwritten (setEntityState entityId state : EngineM κ σ α Unit) := by
  intro s e s' h
  rcases setEntityState_eq_error.1 h with ⟨-, -, rfl⟩ | ⟨-, -, -, rfl⟩
  · exact Unwritten.rfl _
  · exact Unwritten.markFailed s e

/-- a healthy engine stores a state under any identifier but the empty one -/
theorem setEntityState_total {entityId : String} {state : σ} (hs : s.failure = none) (hid : entityId ≠ "") :
    setEntityState entityId state s ≠ .error e s' := by
  intro h
  rcases setEntityState_eq_error.1 h with ⟨hfailed, -⟩ | ⟨-, hempty, -⟩
  · exact hfailed hs
  · exact hid hempty

/-! ## Refusal -/

/-- an operation raises `SimulationFailedError` and changes nothing -/
def FailsClosed (s : Engine κ σ α) (act : EngineM κ σ α β) : Prop := act s = .error .failed s

/-- every operation of the engine is refused -/
structure Refusing (A : RailAdapter κ σ α) (ctx : DecimalContext) (s : Engine κ σ α) : Prop where
  schedule : ∀ dueAt priority command, FailsClosed s (schedule dueAt priority command)
  post : ∀ entry, FailsClosed s (post ctx entry)
  entityState : ∀ entityId, FailsClosed s (entityState? entityId)
  setEntityState : ∀ entityId state, FailsClosed s (setEntityState entityId state)
  newUuid : FailsClosed s newUuid
  emit : ∀ event, FailsClosed s (emit event)
  run : ∀ turns cutoff, FailsClosed s (run A turns cutoff)
  readEvents : FailsClosed s readEvents
  serializeEvents : ∀ {ρ : Type} (codec : EventCodec ρ), FailsClosed s (serializeEvents codec)

theorem failsClosed_guarded {act : EngineM κ σ α β} (hs : s.failure ≠ none) : FailsClosed s (guarded act) :=
  guarded_eq_error.2 (.inl ⟨hs, rfl, rfl⟩)

/-- an operation that begins with `_ensure_healthy` is refused -/
theorem failsClosed_ensureHealthy {f : Engine κ σ α → EngineM κ σ α β} (hs : s.failure ≠ none) :
    FailsClosed s (do
      let t ← get
      guard t.failure.isNone .failed
      f t) := by
  refine bind_eq_error.2 (.inr ⟨s, s, get_eq_ok.2 ⟨rfl, rfl⟩, bind_eq_error.2 (.inl ?_)⟩)
  rw [guard_eq_error, Option.isNone_eq_false_iff, Option.isSome_iff_ne_none]
  exact ⟨hs, rfl, rfl⟩

/-- **Refusal.** A failed engine refuses every operation, and stays as it is. -/
theorem refuses (A : RailAdapter κ σ α) (ctx : DecimalContext) (hs : s.failure ≠ none) : Refusing A ctx s where
  schedule _ _ _ := failsClosed_guarded hs
  post _ := failsClosed_guarded hs
  entityState _ := failsClosed_ensureHealthy hs
  setEntityState _ _ := failsClosed_guarded hs
  newUuid := failsClosed_guarded hs
  emit _ := failsClosed_guarded hs
  run _ _ := failsClosed_ensureHealthy hs
  readEvents := failsClosed_ensureHealthy hs
  serializeEvents _ := failsClosed_ensureHealthy hs

/-! ## Invariants through failures -/

/-- what adapters write: the ledger, the entity states, their own state and the identifiers -/
structure SameStores (s s' : Engine κ σ α) : Prop where
  ledger : s'.ledger = s.ledger
  entityState : s'.entityState = s.entityState
  adapter : s'.adapter = s.adapter
  uuidPrefix : s'.uuidPrefix = s.uuidPrefix
  uuidSequence : s'.uuidSequence = s.uuidSequence

/-- an invariant of what adapters write that every callback keeps, returning or raising -/
structure Enduring (A : RailAdapter κ σ α) (P : Engine κ σ α → Prop) : Prop where
  stores : ∀ {s s'}, P s → SameStores s s' → P s'
  init : Within (fun s s' => P s → P s') A.init
  handle : ∀ command, Within (fun s s' => P s → P s') (A.handle command)

theorem sameStores_appendBatch {candidates : List PaymentEvent} :
    SameStores s (left (appendBatch candidates s)) := by
  cases h : appendBatch candidates s with
  | ok u s' =>
    obtain ⟨-, -, rfl⟩ := appendBatch_spec h
    exact ⟨rfl, rfl, rfl, rfl, rfl⟩
  | error e s' =>
    rw [left, appendBatch_error h]
    exact ⟨rfl, rfl, rfl, rfl, rfl⟩

variable {A : RailAdapter κ σ α} {P : Engine κ σ α → Prop}

/-- **Turn.** -/
theorem Enduring.dispatch (hP : Enduring A P) (hs : P s) (hschedule : Schedule s) {t : Time} {times : List Time}
    (ht : s.scheduledTimes = t :: times) : P (left (dispatch A t times s)) := by
  obtain ⟨c, rest, -, -, heq⟩ := dispatch_eq hschedule ht
  have hpopped : P (popped s c rest) := hP.stores hs ⟨rfl, rfl, rfl, rfl, rfl⟩
  rw [heq, bind_run]
  cases h : A.handle c.command (popped s c rest) with
  | ok emitted s₁ => exact hP.stores ((hP.handle _).ok h hpopped) sameStores_appendBatch
  | error e s₁ => exact (hP.handle _).error h hpopped

theorem Enduring.runLoop (hP : Enduring A P) (hA : Confined A) (cutoff : Option Time) (turns : ℕ) (hs : P s)
    (hschedule : Schedule s) : P (left (runLoop A cutoff turns s)) := by
  induction turns generalizing s with
  | zero => exact hs
  | succ turns ih =>
    rw [runLoop_succ]
    cases hdue : nextDue cutoff s with
    | none => exact hs
    | some p =>
      obtain ⟨t, times⟩ := p
      have htimes := nextDue_eq_some hdue
      have hturn := hP.dispatch hs hschedule htimes
      obtain ⟨c, rest, hq, -, hok, -⟩ := dispatch_after hA hschedule htimes
      simp only
      cases hd : Engine.dispatch A t times s with
      | error e s₁ =>
        rw [hd] at hturn
        exact hturn
      | ok u s₁ =>
        rw [hd] at hturn
        obtain ⟨t', htouched, hclock, hindex, -, -⟩ := hok u s₁ hd
        have hschedule₁ : Schedule s₁ :=
          ((Served.refl ((hschedule.popped hq).1.touched htouched)).congr hclock hindex).schedule
        exact ih hturn hschedule₁

theorem Enduring.schedule (hP : Enduring A P) (hs : P s) {dueAt : Time} {priority : ℤ} {command : κ} :
    P (left (schedule dueAt priority command s)) := by
  cases h : Engine.schedule dueAt priority command s with
  | ok u s' =>
    simp only [Engine.schedule, guarded_eq_ok, bind_eq_ok, get_eq_ok, raising_eq_ok, set_eq_ok] at h
    obtain ⟨-, _, _, ⟨rfl, rfl⟩, clock, _, ⟨-, rfl⟩, rfl⟩ := h
    exact hP.stores hs ⟨rfl, rfl, rfl, rfl, rfl⟩
  | error e s' =>
    simp only [Engine.schedule, guarded_eq_error, bind_eq_error, get_eq_error, get_eq_ok, raising_eq_error,
      false_or] at h
    rcases h with ⟨-, -, rfl⟩ | ⟨-, t, ⟨_, _, ⟨rfl, rfl⟩, ⟨-, rfl⟩ | ⟨clock, u, -, hset⟩⟩, rfl⟩
    · exact hs
    · exact hP.stores hs ⟨rfl, rfl, rfl, rfl, rfl⟩
    · cases hset

/-- **Step.** A call keeps the invariant, whether it returns or raises. -/
theorem Enduring.call (hP : Enduring A P) (hA : Confined A) (hs : P s) (hschedule : Schedule s) (c : EngineCall κ) :
    P (afterCall A s c) := by
  have hmark : ∀ {t : Engine κ σ α} (e : SimError), P t → P (t.markFailed e) := fun e ht =>
    hP.stores ht ⟨rfl, rfl, rfl, rfl, rfl⟩
  have houtcome := call_outcome A s c
  generalize afterCall A s c = t at houtcome ⊢
  generalize callTrace A s c = trace at houtcome
  cases houtcome with
  | refused => exact hs
  | @scheduled dueAt priority command _ _ h =>
    have hleft := @Enduring.schedule _ _ _ _ _ _ hP hs dueAt priority command
    rw [h] at hleft
    exact hleft
  | @unscheduled dueAt priority command _ _ _ h =>
    have hleft := @Enduring.schedule _ _ _ _ _ _ hP hs dueAt priority command
    rw [h] at hleft
    exact hleft
  | uninitialised _ h => exact hmark _ (hP.init.error (initializeOnce_eq_error h) hs)
  | @ran turns cutoff s₁ _ h =>
    have hs₁ : P s₁ := by
      rcases initializeOnce_eq_ok h with ⟨-, rfl⟩ | ⟨v, s₂, hinit, rfl⟩
      · exact hs
      · exact hP.stores (hP.init.ok hinit hs) ⟨rfl, rfl, rfl, rfl, rfl⟩
    obtain ⟨added, hserved⟩ := (served_initializeOnce hA hschedule).1 _ s₁ h
    have hloop := hP.runLoop hA cutoff turns hs₁ hserved.schedule
    cases hl : Engine.runLoop A cutoff turns s₁ with
    | error e s₂ =>
      rw [hl] at hloop
      exact hmark e hloop
    | ok u s₂ =>
      rw [hl] at hloop
      exact hloop

/-- **Run.** The invariant holds in every engine that any calls reach, failed or not. -/
theorem Enduring.calls (hP : Enduring A P) (hA : Confined A) (hs : P s) (hschedule : Schedule s)
    (calls : List (EngineCall κ)) : P (afterCalls A s calls) := by
  induction calls generalizing s with
  | nil => exact hs
  | cons c rest ih =>
    obtain ⟨_, hserved⟩ := served_call hA hschedule c
    exact ih (hP.call hA hs hschedule c) hserved.schedule

/-! ## Failed runs -/

variable {β : Type} {kept : α → β}

/-- the ledger, the entity states, the event log and a part of the adapter's own state are the same -/
structure Intact (kept : α → β) (s s' : Engine κ σ α) : Prop where
  ledger : s'.ledger = s.ledger
  entityState : s'.entityState = s.entityState
  events : s'.events = s.events
  adapter : kept s'.adapter = kept s.adapter

theorem Intact.trans {t : Engine κ σ α} (h : Intact kept s t) (h' : Intact kept t s') : Intact kept s s' :=
  ⟨h'.ledger.trans h.ledger, h'.entityState.trans h.entityState, h'.events.trans h.events, h'.adapter.trans h.adapter⟩

theorem Unwritten.intact (h : Unwritten s s') (hkept : kept s'.adapter = kept s.adapter) : Intact kept s s' :=
  ⟨h.ledger, h.entityState, h.events, hkept⟩

theorem intact_markFailed (s : Engine κ σ α) (e : SimError) : Intact kept s (s.markFailed e) := ⟨rfl, rfl, rfl, rfl⟩

theorem intact_popped (s : Engine κ σ α) (c : ScheduledCommand κ) (rest : List (ScheduledCommand κ)) :
    Intact kept s (popped s c rest) := ⟨rfl, rfl, rfl, rfl⟩

/-- an adapter for one rail whose callbacks, when they raise, have written nothing -/
structure Atomic (A : RailAdapter κ σ α) (kept : α → β) (rail : Rail) (P : Engine κ σ α → Prop) : Prop where
  logging : Logging A rail
  preserved : Preserved A P
  init : ∀ {s e s'}, A.init s = .error e s' → Intact kept s s'
  handle : ∀ {s command e s'}, (s.failure = none → P s) → A.handle command s = .error e s' → Intact kept s s'

/-- **Turn.** A turn that raises has written nothing: the callback raised, for what it emits is never rejected. -/
theorem Atomic.dispatch_error {rail : Rail} (hA : Atomic A kept rail P) (hschedule : Schedule s)
    (hcanonical : Canonical rail s) (hinit : s.initialized = true) (hs : s.failure = none → P s) {t : Time}
    {times : List Time} (htimes : s.scheduledTimes = t :: times) (h : Engine.dispatch A t times s = .error e s') :
    Intact kept s s' := by
  obtain ⟨c, rest, hq, -, heq⟩ := dispatch_eq (A := A) hschedule htimes
  have hpopped := hcanonical.popped rest (hschedule.popped hq).2.1
  rw [heq] at h
  rcases bind_eq_error.1 h with hhandle | ⟨emitted, s₁, hhandle, happend⟩
  · exact (intact_popped s c rest).trans
      (hA.handle (fun hhealthy => hA.preserved.books (hs hhealthy) (Eq.refl _)) hhandle)
  · have haccepted := (hpopped.append ((hA.logging.confined.handle c.command).ok hhandle)
      (hA.logging.emits (hcanonical.rail hinit) hhandle)).1
    rw [haccepted] at happend
    cases happend

/-- **Loop.** A loop that raises leaves what its complete turns have left. -/
theorem Atomic.runLoop_error {rail : Rail} (hA : Atomic A kept rail P) (hschedule : Schedule s)
    (hcanonical : Canonical rail s) (hinit : s.initialized = true) (hs : s.failure = none → P s) {cutoff : Option Time}
    {turns : ℕ} (h : Engine.runLoop A cutoff turns s = .error e s') :
    ∃ k before, k < turns ∧ Engine.runLoop A cutoff k s = .ok () before ∧ Intact kept before s' := by
  induction turns generalizing s with
  | zero => cases h
  | succ turns ih =>
    rw [runLoop_succ] at h
    cases hdue : nextDue cutoff s with
    | none => simp [hdue] at h
    | some p =>
      obtain ⟨t, times⟩ := p
      have htimes := nextDue_eq_some hdue
      rw [hdue] at h
      simp only at h
      cases hd : Engine.dispatch A t times s with
      | error e₁ s₁ =>
        rw [hd] at h
        cases h
        exact ⟨0, s, Nat.succ_pos _, rfl, hA.dispatch_error hschedule hcanonical hinit hs htimes hd⟩
      | ok u s₁ =>
        rw [hd] at h
        obtain ⟨c, rest, hq, -, hok, -⟩ := dispatch_after hA.logging.confined hschedule htimes
        obtain ⟨t', htouched, hclock, hindex, hflag, hfailure⟩ := hok u s₁ hd
        have hturn := (canonical_steady hA.logging).turn hcanonical hschedule hinit htimes
        rw [hd] at hturn
        have hhealthy : s₁.failure = none → s.failure = none := fun hs₁ => htouched.failure (hfailure ▸ hs₁)
        obtain ⟨k, before, hk, hloop, hintact⟩ :=
          ih ((Served.refl ((hschedule.popped hq).1.touched htouched)).congr hclock hindex).schedule hturn
            ((hflag.trans htouched.initialized).trans hinit)
            (fun hs₁ => hA.preserved.dispatch (hs (hhealthy hs₁)) hd) h
        refine ⟨k + 1, before, Nat.succ_lt_succ hk, ?_, hintact⟩
        rw [runLoop_succ, hdue]
        simp only [hd]
        exact hloop

theorem run_eq {turns : ℕ} {cutoff : Option Time} (hs : s.failure = none)
    (hcutoff : (cutoff.all fun u => decide (s.clock.now ≤ u)) = true) :
    Engine.run A turns cutoff s = guarded (do initializeOnce A; Engine.runLoop A cutoff turns) s := by
  have hget : (get : EngineM κ σ α (Engine κ σ α)) s = .ok s s := rfl
  simp only [Engine.run, bind_run, hget, hs, hcutoff]
  rfl

/-- **Failed runs.** A run that raises was refused and changes nothing, or fails the engine and leaves what its complete
turns have left. -/
theorem Atomic.run_error {rail : Rail} (hA : Atomic A kept rail P) (ctx : DecimalContext) (hschedule : Schedule s)
    (hcanonical : Canonical rail s) (hs : s.failure = none → P s) {turns : ℕ} {cutoff : Option Time}
    (h : Engine.run A turns cutoff s = .error e s') :
    s' = s ∨ Refusing A ctx s' ∧ (Intact kept s s' ∨
      ∃ k before, k < turns ∧ Engine.run A k cutoff s = .ok () before ∧ Intact kept before s') := by
  by_cases hhealthy : s.failure = none
  · by_cases hcutoff : (cutoff.all fun u => decide (s.clock.now ≤ u)) = true
    · right
      rw [run_eq hhealthy hcutoff, guarded_eq_error] at h
      rcases h with ⟨hfailed, -⟩ | ⟨-, t, hrun, rfl⟩
      · exact absurd hhealthy hfailed
      have hrefusing : Refusing A ctx (t.markFailed e) := refuses A ctx (by cases hf : t.failure <;> simp [markFailed, hf])
      refine ⟨hrefusing, ?_⟩
      rcases bind_eq_error.1 hrun with hinit | ⟨_, s₁, hinit, hloop⟩
      · exact .inl ((hA.init (initializeOnce_eq_error hinit)).trans (intact_markFailed _ _))
      · have hinitialised := (initializeOnce_ok hinit).1
        obtain ⟨added, hserved⟩ := (served_initializeOnce hA.logging.confined hschedule).1 _ s₁ hinit
        have hcanonical₁ : Canonical rail s₁ := by
          rcases initializeOnce_eq_ok hinit with ⟨-, rfl⟩ | ⟨v, s₂, hraw, rfl⟩
          · exact hcanonical
          · exact (canonical_steady hA.logging).initialised hcanonical hraw
        obtain ⟨k, before, hk, hbefore, hintact⟩ := hA.runLoop_error hserved.schedule hcanonical₁ hinitialised
          (fun _ => hA.preserved.initializeOnce (hs hhealthy) hinit) hloop
        refine .inr ⟨k, before, hk, ?_, hintact.trans (intact_markFailed _ _)⟩
        rw [run_eq hhealthy hcutoff, guarded_eq_ok]
        exact ⟨hhealthy, bind_eq_ok.2 ⟨_, s₁, hinit, hbefore⟩⟩
    · left
      simp only [Engine.run, bind_eq_error, get_eq_error, get_eq_ok, guard_eq_error, guard_eq_ok, false_or] at h
      obtain ⟨_, _, ⟨rfl, rfl⟩, ⟨-, -, rfl⟩ | ⟨_, _, ⟨-, rfl⟩, ⟨-, -, rfl⟩ | ⟨_, _, ⟨hok, rfl⟩, -⟩⟩⟩ := h
      · rfl
      · rfl
      · exact absurd hok hcutoff
  · left
    have hrefused := (refuses A ctx hhealthy).run turns cutoff
    unfold FailsClosed at hrefused
    rw [hrefused] at h
    cases h
    rfl

end Engine

end Apar
