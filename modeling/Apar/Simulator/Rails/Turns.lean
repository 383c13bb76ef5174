/-
Everything a lifecycle adapter's `handle` has checked when it returns.

`Lifecycle.Accepted` is a transition with all that `handle` met on the way: the canonical command, its fingerprint, the
unused idempotency key, the revalidated new state and the validated event. `Lifecycle.Retried` is a repeated command.

- `handle_cases`: a command that `handle` accepts is one or the other; `Retried.handle` is the converse for a repeat.
- `confined_adapter`: returning or raising, the callbacks touch only the books of the engine.
-/
import Apar.Simulator.Context
import Apar.Simulator.Rails.Lifecycle

namespace Apar

open Exec

namespace Lifecycle

variable {S O R : Type} [Sha256] [DecidableEq S] {L : Lifecycle S O R} {ctx : DecimalContext}
  {s s' : Engine (Command O) (PaymentState S R) Unit} {emitted : List PaymentEvent}

/-! ## Callbacks -/

omit [Sha256] [DecidableEq S] in
theorem within_init : Within Engine.Touched L.init := Within.get.bind fun _ => Within.guard _ _

omit [Sha256] [DecidableEq S] in
theorem within_postEffect (state : PaymentState S R) (effect : Option (Posting R)) (eventId : String) :
    Within Engine.Touched
      (postEffect ctx state effect eventId : EngineM (Command O) (PaymentState S R) Unit Unit) := by
  cases effect with
  | none => exact Within.pure ()
  | some posting => exact Engine.within_post ctx _

theorem within_transact (canonical : Request O R) (state : PaymentState S R) :
    Within Engine.Touched (L.transact ctx canonical state) := by
  refine (Within.raising _).bind fun p => ?_
  refine Engine.within_newUuid.bind fun eventId => ?_
  refine (Within.raising _).bind fun requestFingerprint => ?_
  refine (Within.raising _).bind fun _ => ?_
  refine Within.get.bind fun t => ?_
  refine (Within.raising _).bind fun _ => ?_
  refine (within_postEffect _ _ _).bind fun _ => ?_
  exact (Engine.within_setEntityState _ _).bind fun _ => Within.pure _

theorem within_handle (command : Command O) : Within Engine.Touched (L.handle ctx command) := by
  refine (Within.raising _).bind fun canonical => ?_
  refine (Engine.within_entityState? _).bind fun stored => ?_
  refine (Within.raising _).bind fun state => ?_
  refine (Within.raising _).bind fun _ => ?_
  refine (Within.raising _).bind fun isRetry => ?_
  cases isRetry with
  | true => exact Within.pure []
  | false => exact within_transact canonical state

theorem confined_adapter : Engine.Confined (L.adapter ctx) := ⟨within_init, within_handle⟩

/-! ## Accepted commands -/

/-- a transition, with all that `handle` checked on the way -/
structure Accepted (L : Lifecycle S O R) (ctx : DecimalContext) (command : Command O)
    (s s' : Engine (Command O) (PaymentState S R) Unit) (emitted : List PaymentEvent) extends
    Transition L ctx s s' emitted where
  healthy : s.failure = none
  canonicalized : L.canonicalCommand ctx command = .ok canonical
  fingerprinted : L.payloadFingerprint (L.requestPayload canonical) = .ok fingerprint
  unused : ∀ record ∈ state.records, record.key ≠ canonical.idempotencyKey
  validUpdated : L.validatedState ctx toTransition.updated canonical.paymentId = .ok ()
  validEvent : toTransition.event.validate = .ok ()

/-- a command already in the history of its payment -/
structure Retried (L : Lifecycle S O R) (ctx : DecimalContext) (command : Command O)
    (s : Engine (Command O) (PaymentState S R) Unit) where
  canonical : Request O R
  state : PaymentState S R
  fingerprint : String
  record : HistoryRecord
  canonicalized : L.canonicalCommand ctx command = .ok canonical
  stored : s.entityState.get? canonical.paymentId = some state
  valid : L.validatedState ctx state canonical.paymentId = .ok ()
  fingerprinted : L.payloadFingerprint (L.requestPayload canonical) = .ok fingerprint
  found : state.records.find? (fun r => r.key = canonical.idempotencyKey) = some record
  operation : record.operation = L.operationName canonical.operation
  same : record.fingerprint = fingerprint

variable {canonical : Request O R} {state : PaymentState S R}

omit [DecidableEq S] in
theorem isIdempotentRetry_eq_true :
    L.isIdempotentRetry state canonical = .ok true ↔ ∃ fingerprint record,
      L.payloadFingerprint (L.requestPayload canonical) = .ok fingerprint ∧
      state.records.find? (fun r => r.key = canonical.idempotencyKey) = some record ∧
      record.operation = L.operationName canonical.operation ∧ record.fingerprint = fingerprint := by
  simp only [isIdempotentRetry, except_bind_eq_ok]
  constructor
  · rintro ⟨fingerprint, hfp, h⟩
    cases hfind : state.records.find? (fun r => r.key = canonical.idempotencyKey) with
    | none => simp [hfind] at h
    | some record =>
      simp only [hfind] at h
      split_ifs at h with hsame
      exact ⟨fingerprint, record, hfp, rfl, hsame⟩
  · rintro ⟨fingerprint, record, hfp, hfind, hsame⟩
    exact ⟨fingerprint, hfp, by simp [hfind, hsame]⟩

omit [DecidableEq S] in
theorem isIdempotentRetry_eq_false (h : L.isIdempotentRetry state canonical = .ok false) :
    ∀ record ∈ state.records, record.key ≠ canonical.idempotencyKey := by
  simp only [isIdempotentRetry, except_bind_eq_ok] at h
  obtain ⟨fingerprint, -, h⟩ := h
  cases hfind : state.records.find? (fun r => r.key = canonical.idempotencyKey) with
  | none =>
    intro record hrecord
    simpa using List.find?_eq_none.1 hfind record hrecord
  | some record =>
    simp only [hfind] at h
    split_ifs at h
    simp at h

theorem transact_cases {command : Command O} (hcanonical : L.canonicalCommand ctx command = .ok canonical)
    (hloaded : L.loadState canonical (s.entityState.get? canonical.paymentId) = .ok state)
    (hvalid : L.validatedState ctx state canonical.paymentId = .ok ())
    (hunused : ∀ record ∈ state.records, record.key ≠ canonical.idempotencyKey)
    (h : L.transact ctx canonical state s = .ok emitted s') : Nonempty (Accepted L ctx command s s' emitted) := by
  simp only [transact, bind_eq_ok, raising_eq_ok, nextTransition_eq_ok, Engine.newUuid_eq_ok, get_eq_ok,
    Engine.setEntityState_eq_ok, pure_eq_ok] at h
  obtain ⟨⟨next, kind, effect⟩, _, ⟨hlegal, rfl⟩, eventId, _, ⟨hhealthy, hseq, rfl, rfl⟩, h⟩ := h
  obtain ⟨fingerprint, _, ⟨hfp, rfl⟩, _, _, ⟨hupdated, rfl⟩, _, _, ⟨rfl, rfl⟩, _, _, ⟨hevent, rfl⟩, h⟩ := h
  obtain ⟨_, _, hpost, _, _, ⟨-, -, rfl⟩, rfl, rfl⟩ := h
  obtain ⟨ledger, hledger, rfl⟩ := postEffect_eq_ok hpost
  exact ⟨{
    canonical := canonical, state := state, next := next, kind := kind, effect := effect
    fingerprint := fingerprint, ledger := ledger, loaded := hloaded, valid := hvalid, legal := hlegal
    sequence := hseq, posted := hledger, emits := rfl, after := rfl, healthy := hhealthy
    canonicalized := hcanonical, fingerprinted := hfp, unused := hunused, validUpdated := hupdated
    validEvent := hevent }⟩

omit [Sha256] [DecidableEq S] in
theorem loadState_found {stored : Option (PaymentState S R)} {record : HistoryRecord} {p : HistoryRecord → Bool}
    (h : L.loadState canonical stored = .ok state) (hfind : state.records.find? p = some record) :
    stored = some state := by
  unfold loadState at h
  cases stored with
  | some stored =>
    simp only [Except.ok.injEq] at h
    rw [h]
  | none =>
    cases ho : canonical.opening with
    | none => simp [ho] at h
    | some o =>
      simp only [ho, Except.ok.injEq] at h
      rw [← h] at hfind
      simp [openingState] at hfind

/-- **What a command does, in full.** A command that `handle` accepts is in the payment's history, and emits and changes
nothing; or it is a transition. -/
theorem handle_cases {command : Command O} (h : L.handle ctx command s = .ok emitted s') :
    (Nonempty (Retried L ctx command s) ∧ s.failure = none ∧ emitted = [] ∧ s' = s) ∨
      Nonempty (Accepted L ctx command s s' emitted) := by
  simp only [handle, bind_eq_ok, raising_eq_ok, Engine.entityState?_eq_ok] at h
  obtain ⟨canonical, _, ⟨hcanonical, rfl⟩, stored, _, ⟨hhealthy, rfl, rfl⟩, state, _, ⟨hloaded, rfl⟩, h⟩ := h
  obtain ⟨_, _, ⟨hvalid, rfl⟩, isRetry, _, ⟨hretry, rfl⟩, h⟩ := h
  cases isRetry with
  | false => exact .inr (transact_cases hcanonical hloaded hvalid (isIdempotentRetry_eq_false hretry) h)
  | true =>
    simp only [if_true, pure_eq_ok] at h
    obtain ⟨fingerprint, record, hfp, hfind, hoperation, hsame⟩ := isIdempotentRetry_eq_true.1 hretry
    exact .inl ⟨⟨⟨canonical, state, fingerprint, record, hcanonical, loadState_found hloaded hfind, hvalid, hfp, hfind,
      hoperation, hsame⟩⟩, hhealthy, h.1.symm, h.2.symm⟩

/-- a command already in the history of its payment emits nothing and changes nothing -/
theorem Retried.handle {command : Command O} (r : Retried L ctx command s) (hs : s.failure = none) :
    L.handle ctx command s = .ok [] s := by
  have hretry : L.isIdempotentRetry r.state r.canonical = .ok true :=
    isIdempotentRetry_eq_true.2 ⟨r.fingerprint, r.record, r.fingerprinted, r.found, r.operation, r.same⟩
  simp only [Lifecycle.handle, bind_eq_ok, raising_eq_ok, Engine.entityState?_eq_ok]
  refine ⟨r.canonical, s, ⟨r.canonicalized, rfl⟩, _, s, ⟨hs, rfl, rfl⟩, r.state, s, ⟨?_, rfl⟩, ?_⟩
  · rw [r.stored]
    rfl
  · refine ⟨(), s, ⟨r.valid, rfl⟩, true, s, ⟨hretry, rfl⟩, ?_⟩
    simp

end Lifecycle

end Apar
