/-
Failure atomicity of the rails: a command that `handle` refuses has written nothing.

Every step of `handle` that can raise comes before the ledger entry and the stored state, but for two: storing the state
after the entry is posted, and, in the agentic rail, committing the plan after both. Neither can fail there.

- `Lifecycle.handle_failsWithin`: the card and the A2A rail.
- `Agentic.handle_error`: the agentic rail, whose verifier also keeps its records.
- `Engine.Atomic.kept_books`: an invariant of the books that every turn keeps outlives a failure.
- `rails_atomic`: in every engine any calls reach, and for every run that fails.
-/
import Apar.Simulator.Failures
import Apar.Trust.Capability
import Apar.Simulator.Rails.Logs

namespace Apar

open Exec

namespace Lifecycle

open Engine

variable {S O R : Type} [Sha256] [DecidableEq S] {L : Lifecycle S O R} {ctx : DecimalContext}

omit [Sha256] [DecidableEq S] in
/-- the entry is the last step that can fail: the state of a named payment is then stored -/
theorem postEffect_setEntityState_failsWithin {paymentId : String} (hid : paymentId ≠ "")
    (state updated : PaymentState S R) (effect : Option (Posting R)) (eventId : String) (emitted : List PaymentEvent) :
    FailsWithin Unwritten (do
      postEffect ctx state effect eventId
      setEntityState paymentId updated
      return emitted : EngineM (Command O) (PaymentState S R) Unit (List PaymentEvent)) := by
  intro s e s' h
  rcases bind_eq_error.1 h with hpost | ⟨_, t, hpost, h⟩
  · cases effect with
    | none => exact (pure_eq_error.1 hpost).elim
    | some posting => exact post_failsWithin _ _ _ _ _ hpost
  · rcases bind_eq_error.1 h with hset | ⟨_, _, -, h⟩
    · cases effect with
      | none =>
        obtain ⟨-, rfl⟩ := pure_eq_ok.1 hpost
        exact setEntityState_failsWithin _ _ _ _ _ hset
      | some posting =>
        obtain ⟨hs, ledger, -, rfl⟩ := post_eq_ok.1 hpost
        exact (setEntityState_total (s := { s with ledger := ledger }) hs hid hset).elim
    · exact (pure_eq_error.1 h).elim

theorem transact_failsWithin (canonical : Request O R) (state : PaymentState S R) :
    FailsWithin Unwritten (L.transact ctx canonical state) := by
  refine FailsWithin.raising_bind fun t _ => ?_
  refine FailsWithin.bind unwritten_newUuid fun eventId => ?_
  refine FailsWithin.raising_bind fun fingerprint _ => ?_
  refine FailsWithin.raising_bind fun _ hvalid => ?_
  refine FailsWithin.bind Within.get fun s => ?_
  refine FailsWithin.raising_bind fun _ _ => ?_
  exact postEffect_setEntityState_failsWithin (validatedState_spec hvalid).2.2 _ _ _ _ _

/-- **Card and A2A.** A command that `handle` refuses has written nothing. -/
theorem handle_failsWithin (command : Command O) : FailsWithin Unwritten (L.handle ctx command) := by
  refine FailsWithin.raising_bind fun canonical _ => ?_
  refine FailsWithin.bind (unwritten_entityState? _) fun stored => ?_
  refine FailsWithin.raising_bind fun state _ => ?_
  refine FailsWithin.raising_bind fun _ _ => ?_
  refine FailsWithin.raising_bind fun isRetry _ => ?_
  cases isRetry with
  | true => exact (Within.pure []).failsWithin
  | false => exact transact_failsWithin canonical state

theorem atomic_adapter : Atomic (L.adapter ctx) (fun _ => ()) L.rail fun _ => True where
  logging := logging_adapter
  preserved := ⟨fun _ _ => trivial, fun _ _ => trivial, fun _ _ _ => trivial⟩
  init := by
    intro s e s' h
    simp only [adapter, init, bind_eq_error, get_eq_error, get_eq_ok, guard_eq_error, false_or] at h
    obtain ⟨_, _, ⟨rfl, rfl⟩, -, -, rfl⟩ := h
    exact ⟨rfl, rfl, rfl, rfl⟩
  handle := fun _ h => (handle_failsWithin _ _ _ _ h).intact rfl

end Lifecycle

/-! ## The agentic rail -/

namespace Agentic

open Engine

variable {γ : Type} {s s' : AgenticEngine γ} {e : SimError}

/-- nothing is written, and the verifier keeps its records -/
structure Spared (s s' : AgenticEngine γ) : Prop where
  unwritten : Unwritten s s'
  records : s'.adapter.verifier.records = s.adapter.verifier.records

instance : Std.Refl (Spared : AgenticEngine γ → AgenticEngine γ → Prop) := ⟨fun s => ⟨Unwritten.rfl s, rfl⟩⟩

instance : IsTrans (AgenticEngine γ) Spared :=
  ⟨fun _ _ _ h h' => ⟨h.unwritten.trans h'.unwritten, h'.records.trans h.records⟩⟩

/-- a method of the verifier that keeps the records -/
def KeepsRecords {β : Type} (act : VerifierM β) : Prop :=
  Within (fun v v' : TrustVerifier => v'.records = v.records) act

theorem spared_withVerifier {β : Type} {act : VerifierM β} (hact : KeepsRecords act) :
    Within Spared (withVerifier act : AgenticM γ β) := by
  constructor
  · intro s b s' h
    obtain ⟨v, hv, rfl⟩ := withVerifier_eq_ok.1 h
    exact ⟨⟨rfl, le_rfl, id⟩, hact.ok hv⟩
  · intro s e s' h
    unfold withVerifier zoom at h
    cases hv : act s.adapter.verifier with
    | ok b v => simp [hv] at h
    | error e' v =>
      simp only [hv, EStateM.Result.error.injEq] at h
      obtain ⟨-, rfl⟩ := h
      exact ⟨⟨rfl, le_rfl, id⟩, hact.error hv⟩

theorem spared_withScorer {β : Type} (act : EStateM SimError γ β) : Within Spared (withScorer act : AgenticM γ β) :=
  Within.zoom (fun _ _ => ⟨⟨rfl, le_rfl, id⟩, rfl⟩) act

theorem spared_newUuid : Within Spared (newUuid : AgenticM γ String) := by
  constructor
  · intro s a s' h
    obtain ⟨-, -, -, rfl⟩ := newUuid_eq_ok.1 h
    exact ⟨unwritten_newUuid.ok h, rfl⟩
  · intro s e s' h
    refine ⟨unwritten_newUuid.error h, ?_⟩
    rcases newUuid_eq_error.1 h with ⟨-, -, rfl⟩ | ⟨-, -, -, rfl⟩ <;> rfl

theorem spared_newEvent (request : AgentPaymentRequest) (decision : AgenticDecision) :
    Within Spared (newEvent request decision : AgenticM γ PaymentEvent) :=
  spared_newUuid.bind fun _ => Within.get.bind fun _ => (Within.raising _).bind fun _ => Within.pure _

/-! ### The verifier's methods -/

theorem keepsRecords_of_left {β : Type} {act : VerifierM β}
    (h : ∀ v, (TrustVerifier.left (act v)).records = v.records) : KeepsRecords act := by
  constructor
  · intro v b v' hok
    have := h v
    rwa [hok] at this
  · intro v e v' herror
    have := h v
    rwa [herror] at this

theorem keepsRecords_preview [Sha256] [Ed25519] (request : AgentPaymentRequest) (now : Time) :
    KeepsRecords (TrustVerifier.preview request now) :=
  keepsRecords_of_left fun v => TrustVerifier.preview_records v request now

theorem keepsRecords_prepareCommit [Sha256] [Ed25519] (request : AgentPaymentRequest) (receipt : IntegrityReceipt)
    (outcome : ReceiptOutcome) (now : Time) :
    KeepsRecords (TrustVerifier.prepareCommit request receipt outcome now) :=
  keepsRecords_of_left fun v => TrustVerifier.prepareCommit_records v request receipt outcome now

theorem keepsRecords_discardPreview (receipt : Handle IntegrityReceipt) :
    KeepsRecords (TrustVerifier.discardPreview receipt) := by
  refine keepsRecords_of_left fun v => ?_
  rw [TrustVerifier.discardPreview_run]
  split_ifs <;> rfl

theorem keepsRecords_discardCommit (plan : TrustCommitPlan) : KeepsRecords (TrustVerifier.discardCommit plan) := by
  refine keepsRecords_of_left fun v => ?_
  rw [TrustVerifier.discardCommit_run]
  cases v.pendingFor plan <;> rfl

theorem keepsRecords_projectedState (plan : TrustCommitPlan) : KeepsRecords (TrustVerifier.projectedState plan) := by
  refine keepsRecords_of_left fun v => ?_
  rw [TrustVerifier.projectedState_run]
  cases v.pendingFor plan <;> rfl

/-! ### The handler -/

theorem spared_process [Sha256] [Ed25519] (scorer : RiskScorer γ) (request : AgentPaymentRequest) (now : Time) :
    Within Spared (process scorer request now) := by
  refine (spared_withVerifier (keepsRecords_preview request now)).bind fun preview => ?_
  split_ifs
  · refine Within.bind ?_ fun action => Within.pure _
    exact (spared_withScorer _).onError (spared_withVerifier (keepsRecords_discardPreview preview))
  · exact Within.pure _

/-- the entry is the last step of a commit's writing that can fail -/
theorem storeCommit_failsWithin (ctx : DecimalContext) (p : AgenticPayment) (action : Action) (eventId : String)
    (projected : TrustState) : FailsWithin Spared (storeCommit ctx p action eventId projected : AgenticM γ Unit) := by
  intro s e s' h
  have hid : trustStateId ≠ "" := by decide
  have hset : ∀ {s s' : AgenticEngine γ}, setEntityState trustStateId projected s = .error e s' → Spared s s' := by
    intro s s' hset
    refine ⟨setEntityState_failsWithin _ _ _ _ _ hset, ?_⟩
    rcases setEntityState_eq_error.1 hset with ⟨-, -, rfl⟩ | ⟨-, -, -, rfl⟩ <;> rfl
  rcases bind_eq_error.1 h with hpost | ⟨_, t, hpost, hfails⟩
  · cases action with
    | approve =>
      refine ⟨post_failsWithin _ _ _ _ _ hpost, ?_⟩
      rcases post_eq_error.1 hpost with ⟨-, -, rfl⟩ | ⟨-, -, rfl⟩ <;> rfl
    | challenge => exact (pure_eq_error.1 hpost).elim
    | decline => exact (pure_eq_error.1 hpost).elim
  · cases action with
    | approve =>
      obtain ⟨hs, ledger, -, rfl⟩ := post_eq_ok.1 hpost
      exact (setEntityState_total (s := { s with ledger := ledger }) hs hid hfails).elim
    | challenge =>
      obtain ⟨-, rfl⟩ := pure_eq_ok.1 hpost
      exact hset hfails
    | decline =>
      obtain ⟨-, rfl⟩ := pure_eq_ok.1 hpost
      exact hset hfails

/-- the commit of a plan: once the stores are written, the plan is still the pending one -/
theorem commitPlan_failsWithin (ctx : DecimalContext) (p : AgenticPayment) (action : Action) (eventId : String)
    (projected : TrustState) {plan : TrustCommitPlan} (emitted : List PaymentEvent) {pending : PendingCommit}
    (hpending : s.adapter.verifier.pendingCommit = some pending) (hplan : pending.capability = plan)
    (h : (do
      onError (storeCommit ctx p action eventId projected) (withVerifier (TrustVerifier.discardCommit plan))
      let _ ← withVerifier (TrustVerifier.applyCommit plan)
      return emitted : AgenticM γ (List PaymentEvent)) s = .error e s') : Spared s s' := by
  rcases bind_eq_error.1 h with hstore | ⟨_, t, hstore, h⟩
  · exact (FailsWithin.onError (storeCommit_failsWithin ctx p action eventId projected)
      (spared_withVerifier (keepsRecords_discardCommit plan))) _ _ _ hstore
  · obtain ⟨ledger, -, rfl⟩ := storeCommit_spec (onError_eq_ok.1 hstore)
    rcases bind_eq_error.1 h with happly | ⟨_, _, -, h⟩
    · have hrun := TrustVerifier.applyCommit_run s.adapter.verifier plan
      rw [TrustVerifier.pendingFor_iff.2 ⟨hpending, by rw [hplan]⟩] at hrun
      unfold withVerifier zoom at happly
      simp only at happly
      rw [hrun] at happly
      cases happly
    · exact (pure_eq_error.1 h).elim

theorem handleLoaded_failsWithin [Sha256] [Ed25519] (scorer : RiskScorer γ) (ctx : DecimalContext) (p : AgenticPayment) :
    FailsWithin Spared (handleLoaded scorer ctx p) := by
  refine FailsWithin.bind Within.get fun s => ?_
  refine FailsWithin.bind (spared_process _ _ _) fun decision => ?_
  split_ifs with hallowed
  · refine FailsWithin.bind Within.get fun s => ?_
    intro s₁ e s' h
    rcases bind_eq_error.1 h with hprepare | ⟨prepared, s₂, hprepare, h⟩
    · exact (spared_withVerifier (keepsRecords_prepareCommit _ _ _ _)).error hprepare
    have hsparedPrepare := (spared_withVerifier (keepsRecords_prepareCommit _ _ _ _)).ok hprepare
    refine IsTrans.trans _ _ _ hsparedPrepare ?_
    cases prepared with
    | inr rejected =>
      exact ((spared_newEvent _ _).bind fun _ => Within.pure _).error h
    | inl plan =>
      obtain ⟨v, hv, rfl⟩ := withVerifier_eq_ok.1 hprepare
      obtain ⟨-, -, hplan⟩ := TrustVerifier.prepareCommit_spec hv
      obtain ⟨-, pending, hpending, hcapability, -⟩ := hplan plan rfl
      rcases bind_eq_error.1 h with hevent | ⟨event, s₃, hevent, h⟩
      · exact (spared_newEvent _ _).error hevent
      refine IsTrans.trans _ _ _ ((spared_newEvent _ _).ok hevent) ?_
      rw [newEvent_spec hevent] at h ⊢
      rcases bind_eq_error.1 h with hprojected | ⟨projected, s₄, hprojected, h⟩
      · exact (spared_withVerifier (keepsRecords_projectedState plan)).error hprojected
      obtain ⟨v', hv', rfl⟩ := withVerifier_eq_ok.1 hprojected
      obtain ⟨rfl, -⟩ := TrustVerifier.projectedState_spec hpending hv'
      exact commitPlan_failsWithin ctx p decision.action event.eventId projected [event] hpending hcapability h
  · exact ((spared_newEvent _ _).bind fun _ => Within.pure _).failsWithin

/-- **Agentic.** A command that `handle` refuses has written nothing, and the verifier has the records it had: those it
was given back when the stored state was loaded. -/
theorem handle_error [Sha256] [Ed25519] {scorer : RiskScorer γ} {ctx : DecimalContext} {command : AgenticCommand}
    (hrecords : s.failure = none → s.adapter.verifier.records = storedRecords s)
    (h : handle scorer ctx command s = .error e s') : Spared s s' := by
  rcases bind_eq_error.1 h with hcanonical | ⟨p, s₁, hcanonical, h⟩
  · rw [raising_eq_error] at hcanonical
    exact hcanonical.2 ▸ refl s
  obtain ⟨-, rfl⟩ := raising_eq_ok.1 hcanonical
  rcases bind_eq_error.1 h with hstored | ⟨stored, s₁, hstored, h⟩
  · obtain ⟨-, -, rfl⟩ := entityState?_eq_error.1 hstored
    exact refl _
  obtain ⟨hhealthy, rfl, rfl⟩ := entityState?_eq_ok.1 hstored
  rcases bind_eq_error.1 h with hload | ⟨_, s₂, hload, h⟩
  · unfold withVerifier zoom at hload
    rw [TrustVerifier.loadState_run] at hload
    cases hl : s₁.adapter.verifier.loadRecords ((s₁.entityState.get? trustStateId).getD ⟨1, []⟩) with
    | ok records => simp [hl] at hload
    | error e' =>
      simp only [hl, EStateM.Result.error.injEq] at hload
      obtain ⟨-, rfl⟩ := hload
      exact refl _
  · obtain ⟨v, hv, rfl⟩ := withVerifier_eq_ok.1 hload
    obtain ⟨-, hloaded⟩ := TrustVerifier.loadState_spec hv
    have hsame : v.records = s₁.adapter.verifier.records := by
      rw [hloaded, hrecords hhealthy, storedRecords]
      cases s₁.entityState.get? trustStateId with
      | none => rfl
      | some st => rfl
    have hbefore : Spared s₁ { s₁ with adapter := { s₁.adapter with verifier := v } } := ⟨⟨rfl, le_rfl, id⟩, hsame⟩
    exact IsTrans.trans _ _ _ hbefore (handleLoaded_failsWithin scorer ctx p _ _ _ h)

/-- the verifier has the stored records -/
def Agrees (s : AgenticEngine γ) : Prop := s.adapter.verifier.records = storedRecords s

theorem agrees_preserved [Sha256] [Ed25519] (scorer : RiskScorer γ) (ctx : DecimalContext) :
    Preserved (adapter scorer ctx) Agrees where
  books := by
    intro s s' hs hsame
    rw [hsame]
    exact hs
  init := by
    intro s s' u hs hinit
    simp only [adapter, init, bind_eq_ok, get_eq_ok, guard_eq_ok] at hinit
    obtain ⟨_, _, ⟨rfl, rfl⟩, -, rfl⟩ := hinit
    exact hs
  turn := by
    intro s s₁ s' command emitted hs hhandle happend
    obtain ⟨-, -, hs'⟩ := appendBatch_spec happend
    have hagrees : Agrees s₁ := by
      rcases handle_spec hhandle with hidle | ⟨p, action, eventId, hcommits⟩
      · rw [Agrees, hidle.records, storedRecords, storedRecords, hidle.entityState]
      · rw [Agrees, hcommits.records, storedRecords_set hcommits.entityState]
    rw [hs']
    exact hagrees

theorem atomic_adapter [Sha256] [Ed25519] (scorer : RiskScorer γ) (ctx : DecimalContext) :
    Atomic (adapter scorer ctx) (fun a => a.verifier.records) .agentic Agrees where
  logging := logging_adapter scorer ctx
  preserved := agrees_preserved scorer ctx
  init := by
    intro s e s' h
    simp only [adapter, init, bind_eq_error, get_eq_error, get_eq_ok, guard_eq_error, false_or] at h
    obtain ⟨_, _, ⟨rfl, rfl⟩, -, -, rfl⟩ := h
    exact ⟨rfl, rfl, rfl, rfl⟩
  handle := fun hs h =>
    have hspared := handle_error hs h
    hspared.unwritten.intact hspared.records

end Agentic

/-! ## Every run -/

open Engine

/-- what an engine promises of commands and runs that fail -/
structure FailureAtomic {κ σ α β : Type} (A : RailAdapter κ σ α) (ctx : DecimalContext) (kept : α → β)
    (s : Engine κ σ α) : Prop where
  /-- a command that `handle` refuses has written nothing, and fails the engine for good -/
  handle : ∀ t, SameBooks s t → ∀ command e t', A.handle command t = .error e t' →
    Intact kept s t' ∧ Refusing A ctx (t'.markFailed e)
  /-- a run that raises was refused, or leaves what its complete turns have left, and fails the engine for good -/
  run : ∀ turns cutoff e s', run A turns cutoff s = .error e s' →
    s' = s ∨ Refusing A ctx s' ∧ (Intact kept s s' ∨
      ∃ k before, k < turns ∧ Engine.run A k cutoff s = .ok () before ∧ Intact kept before s')

theorem Engine.Atomic.failureAtomic {κ σ α β : Type} {A : RailAdapter κ σ α} {kept : α → β} {expected : Rail}
    {P : Engine κ σ α → Prop} (hA : Atomic A kept expected P) (ctx : DecimalContext) {s : Engine κ σ α}
    (hschedule : Schedule s) (hcanonical : Canonical expected s) (hs : s.failure = none → P s) :
    FailureAtomic A ctx kept s where
  handle := by
    intro t ht command e t' h
    have hhealthy : t.failure = none → P t := fun hf => hA.preserved.books (hs (by rw [ht] at hf; exact hf)) ht
    have hbooks : Intact kept s t := by
      rw [ht]
      exact ⟨rfl, rfl, rfl, rfl⟩
    refine ⟨hbooks.trans (hA.handle hhealthy h), refuses A ctx ?_⟩
    cases hf : t'.failure <;> simp [markFailed, hf]
  run := fun turns cutoff e s' h => hA.run_error ctx hschedule hcanonical hs h

theorem Engine.Atomic.calls {κ σ α β : Type} {A : RailAdapter κ σ α} {kept : α → β} {expected : Rail}
    {P : Engine κ σ α → Prop} (hA : Atomic A kept expected P) (ctx : DecimalContext) (rail : Rail) (viewpoint : String)
    {uuidPrefix : ℕ} (hhead : uuidPrefix < 2 ^ 80) (start : Time) (ledger : Ledger) (adapter : α)
    (hfresh : P (fresh rail viewpoint uuidPrefix start ledger adapter)) (calls : List (EngineCall κ)) :
    FailureAtomic A ctx kept (afterCalls A (fresh rail viewpoint uuidPrefix start ledger adapter) calls) := by
  have hcanonical := (canonical_steady hA.logging).calls hA.logging.confined
    (canonical_fresh expected rail viewpoint hhead start ledger adapter)
    (schedule_fresh rail viewpoint uuidPrefix start ledger adapter) calls
  obtain ⟨_, hserved⟩ := served_calls hA.logging.confined
    (schedule_fresh rail viewpoint uuidPrefix start ledger adapter) calls
  exact hA.failureAtomic ctx hserved.schedule hcanonical (calls_inv hA.preserved calls hfresh)

/-- **Books of failed engines.** Whatever calls an engine has served, its books are those of an engine that every turn has
kept in order: it is healthy in that sense, or it failed and kept what its complete turns had left. -/
theorem Engine.Atomic.kept_books {κ σ α β : Type} {A : RailAdapter κ σ α} {kept : α → β} {expected : Rail}
    {P : Engine κ σ α → Prop} (hA : Atomic A kept expected P) (ctx : DecimalContext) (rail : Rail) (viewpoint : String)
    {uuidPrefix : ℕ} (hhead : uuidPrefix < 2 ^ 80) (start : Time) (ledger : Ledger) (adapter : α)
    (hfresh : P (fresh rail viewpoint uuidPrefix start ledger adapter)) (calls : List (EngineCall κ)) :
    let s := afterCalls A (fresh rail viewpoint uuidPrefix start ledger adapter) calls
    P s ∨ s.failure ≠ none ∧ ∃ t, P t ∧ Intact kept t s := by
  intro s
  induction calls using List.reverseRecOn with
  | nil => exact .inl hfresh
  | append_singleton rest c ih =>
    have hsnoc : s = afterCall A (afterCalls A (fresh rail viewpoint uuidPrefix start ledger adapter) rest) c := by
      simp [s, afterCalls]
    have hatomic := hA.calls ctx rail viewpoint hhead start ledger adapter hfresh rest
    generalize afterCalls A (fresh rail viewpoint uuidPrefix start ledger adapter) rest = before at hsnoc ih hatomic
    rcases ih with hs | ⟨hfailed, t, ht, hintact⟩
    · cases hcall : call A c before with
      | ok u s' =>
        rw [hsnoc, afterCall, hcall]
        exact .inl (hA.preserved.call hs hcall)
      | error e s' =>
        have hs' : s = s' := by rw [hsnoc, afterCall, hcall]
        rw [hs']
        cases c with
        | schedule dueAt priority command =>
          rcases guarded_eq_error.1 hcall with ⟨-, -, rfl⟩ | ⟨-, t, hact, rfl⟩
          · exact .inl hs
          · simp only [bind_eq_error, get_eq_error, get_eq_ok, raising_eq_error, false_or] at hact
            obtain ⟨_, _, ⟨rfl, rfl⟩, ⟨-, rfl⟩ | ⟨clock, u, -, hset⟩⟩ := hact
            · refine .inr ⟨?_, _, hs, intact_markFailed _ _⟩
              cases hf : before.failure <;> simp [markFailed, hf]
            · cases hset
        | run turns cutoff =>
          rcases hatomic.run turns cutoff e s' hcall with rfl | ⟨hrefusing, hintact⟩
          · exact .inl hs
          · have hfailed : s'.failure ≠ none := (entityState?_eq_error.1 (hrefusing.entityState "")).1
            rcases hintact with hintact | ⟨k, t, -, hrun, hintact⟩
            · exact .inr ⟨hfailed, before, hs, hintact⟩
            · exact .inr ⟨hfailed, t, hA.preserved.run hs hrun, hintact⟩
    · rw [hsnoc, afterCall_failed c hfailed]
      exact .inr ⟨hfailed, t, ht, hintact⟩

/-- **Failure atomicity.** In every engine that any calls reach on any of the rails, a command that `handle` refuses
leaves the ledger, the entity states and the event log as they were, and on the agentic rail the verifier's records; the
engine it fails refuses every operation from then on. A run that raises leaves what its complete turns have left. -/
theorem rails_atomic [Sha256] [Ed25519] (ctx : DecimalContext) (rail : Rail) (viewpoint : String)
    (head b6 b7 b8 b9 : ℕ) (start : Time) (ledger : Ledger) :
    let p := versionedPrefix head b6 b7 b8 b9
    (∀ calls, FailureAtomic (cardRail.adapter ctx) ctx (fun _ => ())
      (afterCalls (cardRail.adapter ctx) (fresh rail viewpoint p start ledger ()) calls)) ∧
    (∀ calls, FailureAtomic (a2aRail.adapter ctx) ctx (fun _ => ())
      (afterCalls (a2aRail.adapter ctx) (fresh rail viewpoint p start ledger ()) calls)) ∧
    ∀ (γ : Type) (scorer : RiskScorer γ) (g : γ) agents mandates evidence verifier,
      TrustVerifier.create agents mandates evidence = .ok verifier →
      ∀ calls, FailureAtomic (Agentic.adapter scorer ctx) ctx (fun a => a.verifier.records)
        (afterCalls (Agentic.adapter scorer ctx) (fresh rail viewpoint p start ledger ⟨verifier, g⟩) calls) := by
  intro p
  have hp : p < 2 ^ 80 := versionedPrefix_lt head b6 b7 b8 b9
  refine ⟨?_, ?_, ?_⟩
  · exact Lifecycle.atomic_adapter.calls ctx rail viewpoint hp start ledger () trivial
  · exact Lifecycle.atomic_adapter.calls ctx rail viewpoint hp start ledger () trivial
  · intro γ scorer g agents mandates evidence verifier hverifier
    refine (Agentic.atomic_adapter scorer ctx).calls ctx rail viewpoint hp start ledger ⟨verifier, g⟩ ?_
    rw [TrustVerifier.create_spec hverifier]
    rfl

namespace Agentic

/-- a scorer that raises -/
def raisingScorer : RiskScorer Unit := fun _ _ => throw .external

/-- the engine of the sample verifier, with the sample command due -/
def dueEngine : AgenticEngine Unit :=
  letI := sampleDigest
  letI := sampleScheme
  afterCalls (adapter raisingScorer .default)
    (fresh .agentic "development" (versionedPrefix 1 2 3 4 5) 0 sampleLedger ⟨sampleVerifier, ()⟩)
    [.schedule 1 0 sampleCommand]

end Agentic

/-- the sample command raises in the scorer: the run fails the engine and writes nothing -/
theorem rails_atomic_sample :
    let _ : Sha256 := Agentic.sampleDigest
    let _ : Ed25519 := Agentic.sampleScheme
    ∃ e s', run (Agentic.adapter Agentic.raisingScorer .default) 1 none Agentic.dueEngine = .error e s' ∧
      Refusing (Agentic.adapter Agentic.raisingScorer .default) .default s' := by
  intro _ _
  have hatomic := (rails_atomic .default .agentic "development" 1 2 3 4 5 0 Agentic.sampleLedger).2.2 Unit
    Agentic.raisingScorer () _ _ _ _ Agentic.sampleVerifier_created [.schedule 1 0 Agentic.sampleCommand]
  have heval : (match run (Agentic.adapter Agentic.raisingScorer .default) 1 none Agentic.dueEngine with
      | .ok _ _ => false
      | .error _ s' => s'.failure.isSome && Agentic.dueEngine.failure.isNone) = true := by decide +kernel
  cases h : run (Agentic.adapter Agentic.raisingScorer .default) 1 none Agentic.dueEngine with
  | ok u s' => simp [h] at heval
  | error e s' =>
    simp only [h, Bool.and_eq_true] at heval
    rcases hatomic.run 1 none e s' h with hsame | ⟨hrefusing, -⟩
    · have hdue : s' = Agentic.dueEngine := hsame
      rw [hdue, Option.isNone_iff_eq_none.1 heval.2] at heval
      exact absurd heval.1 Bool.false_ne_true
    · exact ⟨e, s', rfl, hrefusing⟩

end Apar
