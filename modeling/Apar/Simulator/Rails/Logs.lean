/-
The event logs of the three rails (`simulator/rails/card.py`, `a2a.py`, `agentic.py`).

Each adapter draws one identifier for a command that takes effect and emits one event under it, so it is a `Logging`
adapter and `Engine.canonical_steady` applies.

- `event_log_canonical`: over every run the log is strictly increasing with distinct identifiers, no batch is rejected,
and the serialised log replays to itself.
-/
import Apar.Simulator.EventLog
import Apar.Simulator.Rails.Turns
import Apar.Simulator.Rails.Card
import Apar.Simulator.Rails.A2A
import Apar.Simulator.Rails.AgenticRuns

namespace Apar

open Exec Engine

/-! ## Card and A2A -/

namespace Lifecycle

variable {S O R : Type} [Sha256] [DecidableEq S] {L : Lifecycle S O R} {ctx : DecimalContext}

theorem logging_adapter : Logging (L.adapter ctx) L.rail where
  confined := confined_adapter
  init := by
    intro s s' u h
    simp only [adapter, Lifecycle.init, bind_eq_ok, get_eq_ok, guard_eq_ok, decide_eq_true_eq] at h
    obtain ⟨_, _, ⟨rfl, rfl⟩, hrail, -⟩ := h
    exact hrail
  emits := by
    intro s s' command emitted hrail h
    rcases handle_cases h with ⟨-, -, hnone, -⟩ | ⟨⟨t⟩⟩
    · exact .inl hnone
    · refine .inr ⟨t.event, t.emits, t.validEvent, hrail.symm, rfl, s.uuidSequence, le_rfl, ?_, t.sequence, rfl⟩
      rw [t.after]
      exact Nat.lt_succ_self _

end Lifecycle

/-! ## Agentic -/

namespace Agentic

variable {γ : Type}

theorem within_withVerifier {β : Type} (act : VerifierM β) : Within Touched (withVerifier act : AgenticM γ β) :=
  Within.zoom (fun _ _ => .of_same rfl rfl rfl le_rfl rfl rfl rfl rfl rfl id) act

theorem within_withScorer {β : Type} (act : EStateM SimError γ β) : Within Touched (withScorer act : AgenticM γ β) :=
  Within.zoom (fun _ _ => .of_same rfl rfl rfl le_rfl rfl rfl rfl rfl rfl id) act

theorem within_newEvent (request : AgentPaymentRequest) (decision : AgenticDecision) :
    Within Touched (newEvent request decision : AgenticM γ PaymentEvent) :=
  within_newUuid.bind fun _ => Within.get.bind fun _ => (Within.raising _).bind fun _ => Within.pure _

theorem within_storeCommit (ctx : DecimalContext) (p : AgenticPayment) (action : Action) (eventId : String)
    (projected : TrustState) : Within Touched (storeCommit ctx p action eventId projected : AgenticM γ Unit) := by
  refine Within.bind ?_ fun _ => within_setEntityState _ _
  cases action with
  | approve => exact within_post ctx _
  | challenge => exact Within.pure ()
  | decline => exact Within.pure ()

variable [Sha256] [Ed25519]

theorem within_process (scorer : RiskScorer γ) (request : AgentPaymentRequest) (now : Time) :
    Within Touched (process scorer request now) := by
  refine (within_withVerifier _).bind fun preview => ?_
  split_ifs
  · refine Within.bind ?_ fun action => Within.pure _
    exact (within_withScorer _).onError (within_withVerifier _)
  · exact Within.pure _

omit [Sha256] [Ed25519] in
/-- an event made by `newEvent` is issued by the call -/
theorem newEvent_issued {request : AgentPaymentRequest} {decision : AgenticDecision} {s s' : AgenticEngine γ}
    {e : PaymentEvent} (hrail : s.rail = .agentic) (h : newEvent request decision s = .ok e s') : Issued s s' e := by
  simp only [newEvent, bind_eq_ok, newUuid_eq_ok, get_eq_ok, raising_eq_ok, pure_eq_ok] at h
  obtain ⟨_, _, ⟨-, hseq, rfl, rfl⟩, _, _, ⟨rfl, rfl⟩, _, _, ⟨hvalid, rfl⟩, rfl, rfl⟩ := h
  exact ⟨hvalid, hrail.symm, rfl, s.uuidSequence, le_rfl, Nat.lt_succ_self _, hseq, rfl⟩

theorem within_handleLoaded (scorer : RiskScorer γ) (ctx : DecimalContext) (p : AgenticPayment) :
    Within Touched (handleLoaded scorer ctx p) := by
  refine Within.get.bind fun s => (within_process _ _ _).bind fun decision => ?_
  split_ifs
  · refine Within.get.bind fun s => (within_withVerifier _).bind fun prepared => ?_
    cases prepared with
    | inr rejected => exact (within_newEvent _ _).bind fun e => Within.pure _
    | inl plan =>
      refine (within_newEvent _ _).bind fun e => (within_withVerifier _).bind fun projected => ?_
      refine Within.bind ?_ fun _ => (within_withVerifier _).bind fun _ => Within.pure _
      exact (within_storeCommit _ _ _ _ _).onError (within_withVerifier _)
  · exact (within_newEvent _ _).bind fun e => Within.pure _

theorem within_handle (scorer : RiskScorer γ) (ctx : DecimalContext) (command : AgenticCommand) :
    Within Touched (handle scorer ctx command) := by
  refine (Within.raising _).bind fun canonical => (within_entityState? _).bind fun stored => ?_
  exact (within_withVerifier _).bind fun _ => within_handleLoaded scorer ctx canonical

omit [Sha256] [Ed25519] in
theorem within_init : Within Touched (init : AgenticM γ Unit) := Within.get.bind fun _ => Within.guard _ _

theorem confined_adapter (scorer : RiskScorer γ) (ctx : DecimalContext) : Confined (adapter scorer ctx) :=
  ⟨within_init, within_handle scorer ctx⟩

/-- a command emits one event, issued after the decision and before the commit -/
theorem handleLoaded_emits {scorer : RiskScorer γ} {ctx : DecimalContext} {p : AgenticPayment} {s s' : AgenticEngine γ}
    {emitted : List PaymentEvent} (hrail : s.rail = .agentic) (h : handleLoaded scorer ctx p s = .ok emitted s') :
    ∃ e, emitted = [e] ∧ Issued s s' e := by
  simp only [handleLoaded, bind_eq_ok, get_eq_ok] at h
  obtain ⟨_, _, ⟨rfl, rfl⟩, decision, s₁, hprocess, h⟩ := h
  have hbefore := (within_process _ _ _).ok hprocess
  by_cases hd : decision.integrityReceipt.allowed = true
  · rw [if_pos hd] at h
    simp only [bind_eq_ok, get_eq_ok] at h
    obtain ⟨_, _, ⟨rfl, rfl⟩, prepared, s₂, hprepare, h⟩ := h
    replace hbefore := hbefore.trans ((within_withVerifier _).ok hprepare)
    cases prepared with
    | inr rejected =>
      simp only [bind_eq_ok, pure_eq_ok] at h
      obtain ⟨e, _, hevent, rfl, rfl⟩ := h
      exact ⟨e, rfl, (newEvent_issued (hbefore.rail.trans hrail) hevent).mono hbefore (Touched.rfl _)⟩
    | inl plan =>
      simp only [bind_eq_ok, onError_eq_ok, pure_eq_ok] at h
      obtain ⟨e, s₃, hevent, projected, s₄, hprojected, _, s₅, hstore, _, _, happly, rfl, rfl⟩ := h
      have hafter := (((within_withVerifier _).ok hprojected).trans ((within_storeCommit _ _ _ _ _).ok hstore)).trans
        ((within_withVerifier _).ok happly)
      exact ⟨e, rfl, (newEvent_issued (hbefore.rail.trans hrail) hevent).mono hbefore hafter⟩
  · rw [if_neg hd] at h
    simp only [bind_eq_ok, pure_eq_ok] at h
    obtain ⟨e, _, hevent, rfl, rfl⟩ := h
    exact ⟨e, rfl, (newEvent_issued (hbefore.rail.trans hrail) hevent).mono hbefore (Touched.rfl _)⟩

theorem logging_adapter (scorer : RiskScorer γ) (ctx : DecimalContext) :
    Logging (adapter scorer ctx) .agentic where
  confined := confined_adapter scorer ctx
  init := by
    intro s s' u h
    simp only [adapter, init, bind_eq_ok, get_eq_ok, guard_eq_ok, decide_eq_true_eq] at h
    obtain ⟨_, _, ⟨rfl, rfl⟩, hrail, -⟩ := h
    exact hrail
  emits := by
    intro s s' command emitted hrail h
    simp only [adapter, handle, bind_eq_ok, raising_eq_ok, entityState?_eq_ok] at h
    obtain ⟨p, s₁, ⟨-, rfl⟩, stored, s₂, ⟨-, rfl, rfl⟩, _, s₃, hload, h⟩ := h
    have hbefore := (within_withVerifier _).ok hload
    obtain ⟨e, rfl, he⟩ := handleLoaded_emits (hbefore.rail.trans hrail) h
    exact .inr ⟨e, rfl, he.mono hbefore (Touched.rfl _)⟩

end Agentic

/-! ## Every run -/

/-- what the log of an engine promises -/
structure LogLaw {κ σ α : Type} (A : RailAdapter κ σ α) (s : Engine κ σ α) : Prop where
  ordered : s.events.Pairwise fun e f => eventKey e < eventKey f
  distinct : (s.events.map PaymentEvent.eventId).Nodup
  /-- whatever the next turn's callback emits is appended -/
  accepted : s.initialized = true → ∀ due times c rest emitted s₁, s.scheduledTimes = due :: times →
    s.clock.queue = c :: rest → A.handle c.command (popped s c rest) = .ok emitted s₁ →
    appendBatch emitted s₁ = .ok () (appended s₁ emitted)
  replays : s.failure = none → ∀ {ρ : Type} (codec : EventCodec ρ), codec.RoundTrips s.events →
    ∃ payload, serializeEvents codec s = .ok payload s ∧ replayEvents codec payload = .ok s.events

theorem Engine.Logging.law {κ σ α : Type} {A : RailAdapter κ σ α} {expected : Rail} (hA : Logging A expected)
    (rail : Rail) (viewpoint : String) {uuidPrefix : ℕ} (hhead : uuidPrefix < 2 ^ 80) (start : Time)
    (ledger : Ledger) (adapter : α) (calls : List (EngineCall κ)) :
    LogLaw A (afterCalls A (fresh rail viewpoint uuidPrefix start ledger adapter) calls) := by
  have hcanonical := (canonical_steady hA).calls hA.confined
    (canonical_fresh expected rail viewpoint hhead start ledger adapter)
    (schedule_fresh rail viewpoint uuidPrefix start ledger adapter) calls
  obtain ⟨_, hserved⟩ := served_calls hA.confined
    (schedule_fresh rail viewpoint uuidPrefix start ledger adapter) calls
  refine ⟨hcanonical.keys, hcanonical.nodup, ?_, fun hs _ codec hcodec => hcanonical.replays hcodec hs⟩
  intro hinit due times c rest emitted s₁ hdue hq hhandle
  have hpopped := hcanonical.popped rest (hserved.schedule.popped hq).2.1
  exact (hpopped.append ((hA.confined.handle c.command).ok hhandle) (hA.emits (hcanonical.rail hinit) hhandle)).1

/-- **Canonical logs.** In every run of a rail, whatever calls are made, the log keeps its law; the identifiers the
engine issues are increasing as text and are version-4 UUIDs. -/
theorem event_log_canonical [Sha256] [Ed25519] (ctx : DecimalContext) (rail : Rail) (viewpoint : String)
    (head b6 b7 b8 b9 : ℕ) (start : Time) (ledger : Ledger) :
    let p := versionedPrefix head b6 b7 b8 b9
    (∀ calls, LogLaw (cardRail.adapter ctx)
      (afterCalls (cardRail.adapter ctx) (fresh rail viewpoint p start ledger ()) calls)) ∧
    (∀ calls, LogLaw (a2aRail.adapter ctx)
      (afterCalls (a2aRail.adapter ctx) (fresh rail viewpoint p start ledger ()) calls)) ∧
    (∀ (γ : Type) (scorer : RiskScorer γ) (initial : AgenticState γ) calls, LogLaw (Agentic.adapter scorer ctx)
      (afterCalls (Agentic.adapter scorer ctx) (fresh rail viewpoint p start ledger initial) calls)) ∧
    (∀ {κ σ α : Type} (s s' : Engine κ σ α) id, newUuid s = .ok id s' ↔ s.failure = none ∧ s.uuidSequence < 2 ^ 48 ∧
      id = uuidAt s.uuidPrefix s.uuidSequence ∧ s' = { s with uuidSequence := s.uuidSequence + 1 }) ∧
    (∀ m n, m < n → n < 2 ^ 48 → uuidAt p m < uuidAt p n) ∧
    ∀ n < 2 ^ 48, Uuid.parseUuid (uuidAt p n) = some (p * 2 ^ 48 + n) ∧ Uuid.version (p * 2 ^ 48 + n) = some 4 := by
  intro p
  have hp : p < 2 ^ 80 := versionedPrefix_lt head b6 b7 b8 b9
  refine ⟨?_, ?_, ?_, fun s s' id => newUuid_eq_ok, fun m n hmn hn => uuidAt_lt hp hn hmn, fun n hn => ⟨?_, ?_⟩⟩
  · exact Lifecycle.logging_adapter.law rail viewpoint hp start ledger ()
  · exact Lifecycle.logging_adapter.law rail viewpoint hp start ledger ()
  · exact fun γ scorer initial => (Agentic.logging_adapter scorer ctx).law rail viewpoint hp start ledger initial
  · exact parseUuid_uuidAt hp hn
  · exact uuidAt_version4 head b6 b7 b8 b9 hn

namespace Card

/-- `json.dumps(s)` -/
def jsonText (s : String) : String := String.ofList (Json.quoted s)

/-- an object of JSON values, in key order -/
def jsonObject (members : List (String × String)) : String :=
  "\x7b" ++ ",".intercalate ((members.insertionSort fun p q => p.1 ≤ q.1).map fun p => jsonText p.1 ++ ":" ++ p.2) ++
    "\x7d"

def fieldJson : FieldValue → String
  | .text s => jsonText s
  | .flag b => if b then "true" else "false"
  | .number text => text

/-- the JSON value of each member of an event -/
def eventMembers (e : PaymentEvent) : List (String × String) :=
  [("schema_version", jsonText e.schemaVersion), ("event_id", jsonText e.eventId),
    ("campaign_id", jsonText e.campaignId), ("trace_id", jsonText e.traceId), ("rail", jsonText e.rail.value),
    ("viewpoint", jsonText e.viewpoint), ("event_type", jsonText e.eventType.value),
    ("amount", jsonText e.amount.text), ("currency", jsonText e.currency),
    ("event_time", jsonText (Calendar.timestampText e.eventTime)),
    ("ingested_at", jsonText (Calendar.timestampText e.ingestedAt)),
    ("available_at", jsonText (Calendar.timestampText e.availableAt)),
    ("decision_at", e.decisionAt.elim "null" fun t => jsonText (Calendar.timestampText t)),
    ("actor_id", jsonText e.actorId), ("counterparty_id", jsonText e.counterpartyId),
    ("party_refs", jsonObject (e.partyRefs.items.map fun p => (p.1, jsonText p.2))),
    ("rail_data", jsonObject (e.railData.items.map fun p => (p.1, fieldJson p.2))),
    ("lineage", jsonObject (e.lineage.items.map fun p => (p.1, fieldJson p.2))),
    ("privacy", jsonObject (e.privacy.items.map fun p => (p.1, jsonText p.2))), ("extensions", jsonObject [])]

/-- a JSON array of objects -/
def sampleText (events : List (List (String × String))) : String :=
  "[" ++ ",".intercalate (events.map jsonObject) ++ "]"

/-- the codec of one log: it reads the text of that log, and no other -/
def sampleCodec (events : List PaymentEvent) : EventCodec (List (String × String)) where
  dump := eventMembers
  validate members :=
    match events.find? fun e => eventMembers e = members with
    | some e => .ok e
    | none => .error (.valueError "validation error for PaymentEvent")
  dumps := sampleText
  loads text :=
    if text = sampleText (events.map eventMembers) then .ok (some (events.map eventMembers))
    else .error (.valueError "Expecting value")

theorem sampleCodec_roundTrips {events : List PaymentEvent} (h : events.length = 1) :
    (sampleCodec events).RoundTrips events := by
  obtain ⟨e, rfl⟩ := List.length_eq_one_iff.1 h
  refine ⟨?_, fun f hf => ?_⟩
  · simp only [sampleCodec, if_true]
  · rw [List.mem_singleton.1 hf]
    simp only [sampleCodec, List.find?_singleton, decide_true, if_true]

end Card

/-- the one event of a two-cent authorisation is replayed -/
theorem event_log_canonical_sample : Card.sampleRun.events.length = 1 ∧ ∃ payload,
    serializeEvents (Card.sampleCodec Card.sampleRun.events) Card.sampleRun = .ok payload Card.sampleRun ∧
      replayEvents (Card.sampleCodec Card.sampleRun.events) payload = .ok Card.sampleRun.events := by
  let _ := Card.sampleDigest
  let _ : Ed25519 := ⟨fun _ => true, fun _ _ _ => true⟩
  obtain ⟨hhealthy, -, -, hevents⟩ := Card.sampleRun_eval
  have hlaw : LogLaw (cardRail.adapter .default) Card.sampleRun :=
    (event_log_canonical .default .card "development" 1 2 3 4 5 0 Card.sampleLedger).1 Card.sampleCalls
  have hlength : Card.sampleRun.events.length = 1 := by
    have := congrArg List.length hevents
    rwa [List.length_map] at this
  exact ⟨hlength, hlaw.replays hhealthy _ (Card.sampleCodec_roundTrips hlength)⟩

end Apar
