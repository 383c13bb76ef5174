/-
Exactly-once commits of the agentic rail, over every run.

- `handle_spec`: a command changes none of the three stores, or commits one request to all of them.
- `Inv`, `Inv.commit`: the three stores agree, and a commit keeps it.
- `agentic_commits_once`: in every healthy state of every run the stored records are the verifier's, nonces and evidence
  references are used once, receipts form chains, and the ledger has one entry for each approved record, in order,
  moving that request's amount from its user to its payee.
-/
import Apar.Trust.Records
import Apar.Simulator.Rails.Agentic

namespace Apar

open Exec

namespace Agentic

variable {γ : Type}

/-! ## What a command does -/

variable {ctx : DecimalContext} {s s' : AgenticEngine γ} {verifier : TrustVerifier}

theorem canonicalCommand_spec [Sha256] {command : AgenticCommand} {p : AgenticPayment}
    (h : canonicalCommand ctx command = .ok p) :
    p.request.validate ctx = .ok () ∧ p.payerAccount = p.request.mandate.userRef ∧
      p.payeeAccount = p.request.payeeId := by
  unfold canonicalCommand at h
  split_ifs at h
  cases hr : rebuildCommand ctx command with
  | error e => simp [hr] at h
  | ok canonical =>
    rw [hr, Except.ok.injEq] at h
    subst h
    simp only [rebuildCommand, requestFromPayload, paymentCommand, except_bind_eq_ok, check_eq_ok,
      except_pure_eq_ok, Bool.and_eq_true, decide_eq_true_eq] at hr
    obtain ⟨_, -, _, -, _, -, request, ⟨_, -, _, -, _, -, _, hvalid, rfl⟩, hr⟩ := hr
    obtain ⟨payer, -, payee, -, _, ⟨_, -, _, -, _, hbound, _, -, rfl⟩, _, -, _, -, rfl⟩ := hr
    exact ⟨hvalid, hbound⟩

theorem withVerifier_eq_ok {β : Type} {act : VerifierM β} {b : β} :
    withVerifier act s = .ok b s' ↔
      ∃ v, act s.adapter.verifier = .ok b v ∧ s' = { s with adapter := { s.adapter with verifier := v } } :=
  zoom_eq_ok

theorem withScorer_eq_ok {β : Type} {act : EStateM SimError γ β} {b : β} :
    withScorer act s = .ok b s' ↔
      ∃ g, act s.adapter.scorer = .ok b g ∧ s' = { s with adapter := { s.adapter with scorer := g } } :=
  zoom_eq_ok

theorem newEvent_spec {request : AgentPaymentRequest} {decision : AgenticDecision} {e : PaymentEvent}
    (h : newEvent request decision s = .ok e s') : s' = { s with uuidSequence := s.uuidSequence + 1 } := by
  simp only [newEvent, bind_eq_ok, Engine.newUuid_eq_ok, get_eq_ok, raising_eq_ok, pure_eq_ok] at h
  obtain ⟨_, _, ⟨-, -, -, rfl⟩, _, _, ⟨rfl, rfl⟩, _, _, ⟨-, rfl⟩, -, rfl⟩ := h
  rfl

/-- the ledger after a commit of an action -/
def Posts (ctx : DecimalContext) (p : AgenticPayment) (eventId : String) (before after : Ledger) : Action → Prop
  | .approve => before.post ctx (paymentEntry p eventId) = .ok after
  | _ => after = before

theorem storeCommit_spec {p : AgenticPayment} {action : Action} {eventId : String} {projected : TrustState} {u : Unit}
    (h : storeCommit ctx p action eventId projected s = .ok u s') :
    ∃ ledger, Posts ctx p eventId s.ledger ledger action ∧
      s' = { s with ledger := ledger, entityState := s.entityState.set trustStateId projected } := by
  simp only [storeCommit, bind_eq_ok, Engine.setEntityState_eq_ok] at h
  obtain ⟨_, _, hpost, -, -, rfl⟩ := h
  cases action with
  | approve =>
    rw [postValue, Engine.post_eq_ok] at hpost
    obtain ⟨-, ledger, hledger, rfl⟩ := hpost
    exact ⟨ledger, hledger, rfl⟩
  | challenge =>
    obtain ⟨-, rfl⟩ := pure_eq_ok.1 hpost
    exact ⟨_, rfl, rfl⟩
  | decline =>
    obtain ⟨-, rfl⟩ := pure_eq_ok.1 hpost
    exact ⟨_, rfl, rfl⟩

/-- the verifier keeps its records and registries; the scorer may have moved -/
structure Kept (s s' : AgenticEngine γ) : Prop where
  adapter : s' = { s with adapter := s'.adapter }
  registries : TrustVerifier.SameRegistries s.adapter.verifier s'.adapter.verifier
  records : s'.adapter.verifier.records = s.adapter.verifier.records

theorem process_spec [Sha256] [Ed25519] {scorer : RiskScorer γ} {request : AgentPaymentRequest} {now : Time}
    {decision : AgenticDecision} (h : process scorer request now s = .ok decision s') :
    Kept s s' ∧ (decision.integrityReceipt.allowed = true →
      s.adapter.verifier.previewChecks request now = .ok ()) := by
  simp only [process, bind_eq_ok, withVerifier_eq_ok] at h
  obtain ⟨preview, _, ⟨v, hpreview, rfl⟩, h⟩ := h
  obtain ⟨hsame, hrecords, hallowed⟩ := TrustVerifier.preview_spec hpreview
  by_cases hv : preview.value.allowed = true
  · rw [if_pos hv] at h
    simp only [bind_eq_ok, onError_eq_ok, withScorer_eq_ok, pure_eq_ok] at h
    obtain ⟨action, _, ⟨g, -, rfl⟩, rfl, rfl⟩ := h
    exact ⟨⟨rfl, hsame, hrecords⟩, fun _ => hallowed hv⟩
  · rw [if_neg hv, pure_eq_ok] at h
    obtain ⟨rfl, rfl⟩ := h
    exact ⟨⟨rfl, hsame, hrecords⟩, fun hd => absurd hd hv⟩

/-- the records stored in the engine -/
def storedRecords (s : AgenticEngine γ) : List StateRecord :=
  ((s.entityState.get? trustStateId).map TrustState.records).getD []

/-- a command that commits nothing -/
structure Idle (s s' : AgenticEngine γ) : Prop where
  ledger : s'.ledger = s.ledger
  entityState : s'.entityState = s.entityState
  registries : TrustVerifier.SameRegistries s.adapter.verifier s'.adapter.verifier
  records : s'.adapter.verifier.records = storedRecords s

/-- the record of a request committed after the given ones -/
def recordAfter [Sha256] (records : List StateRecord) (request : AgentPaymentRequest) (action : Action) :
    StateRecord :=
  TrustVerifier.stateRecord request
    (TrustVerifier.allowedReceipt request (TrustVerifier.lastReceipt records request.agentId) (outcomeOf action))

/-- a command that commits a request to the ledger, the entity state and the verifier -/
structure Commits [Sha256] [Ed25519] (ctx : DecimalContext) (s s' : AgenticEngine γ) (p : AgenticPayment)
    (action : Action) (eventId : String) : Prop where
  valid : p.request.validate ctx = .ok ()
  payer : p.payerAccount = p.request.mandate.userRef
  payee : p.payeeAccount = p.request.payeeId
  signed : s.adapter.verifier.Signed p.request
  nonce : TrustVerifier.nonceUsed (storedRecords s) p.request = false
  evidence : TrustVerifier.FreshEvidence (storedRecords s) p.request
  ledger : Posts ctx p eventId s.ledger s'.ledger action
  entityState : s'.entityState = s.entityState.set trustStateId
    ⟨1, storedRecords s ++ [recordAfter (storedRecords s) p.request action]⟩
  registries : TrustVerifier.SameRegistries s.adapter.verifier s'.adapter.verifier
  records : s'.adapter.verifier.records = storedRecords s ++ [recordAfter (storedRecords s) p.request action]

/-- **What a command does.** It commits nothing, or commits one request to all three stores. -/
theorem handle_spec [Sha256] [Ed25519] {scorer : RiskScorer γ} {command : AgenticCommand} {emitted : List PaymentEvent}
    (h : handle scorer ctx command s = .ok emitted s') :
    Idle s s' ∨ ∃ p action eventId, Commits ctx s s' p action eventId := by
  simp only [handle, bind_eq_ok, raising_eq_ok, Engine.entityState?_eq_ok, withVerifier_eq_ok] at h
  obtain ⟨p, _, ⟨hcanonical, rfl⟩, stored, s, ⟨-, rfl, rfl⟩, _, _, ⟨v, hload, rfl⟩, h⟩ := h
  obtain ⟨hvalid, hpayer, hpayee⟩ := canonicalCommand_spec hcanonical
  obtain ⟨hsame, hrecords⟩ := TrustVerifier.loadState_spec hload
  have hstored : v.records = storedRecords s := by
    rw [hrecords, storedRecords]
    cases s.entityState.get? trustStateId with
    | none => rfl
    | some st => rfl
  simp only [handleLoaded, bind_eq_ok, get_eq_ok] at h
  obtain ⟨_, _, ⟨rfl, rfl⟩, decision, s₁, hprocess, h⟩ := h
  obtain ⟨⟨hadapter, hsame₁, hrecords₁⟩, hchecks⟩ := process_spec hprocess
  replace hsame₁ : TrustVerifier.SameRegistries s.adapter.verifier s₁.adapter.verifier := hsame.trans hsame₁
  replace hrecords₁ : s₁.adapter.verifier.records = storedRecords s := hrecords₁.trans hstored
  by_cases hd : decision.integrityReceipt.allowed = true
  · rw [if_pos hd] at h
    simp only [bind_eq_ok, get_eq_ok, withVerifier_eq_ok] at h
    obtain ⟨_, _, ⟨rfl, rfl⟩, prepared, _, ⟨v₂, hprepare, rfl⟩, h⟩ := h
    obtain ⟨hsame₂, hrecords₂, hplan⟩ := TrustVerifier.prepareCommit_spec hprepare
    cases prepared with
    | inr rejected =>
      simp only [bind_eq_ok, pure_eq_ok] at h
      obtain ⟨e, _, hevent, -, rfl⟩ := h
      rw [newEvent_spec hevent]
      rw [hadapter]
      exact .inl ⟨rfl, rfl, hsame₁.trans hsame₂, hrecords₂.trans hrecords₁⟩
    | inl plan =>
      simp only [bind_eq_ok, withVerifier_eq_ok, onError_eq_ok, pure_eq_ok] at h
      obtain ⟨e, _, hevent, projected, _, ⟨v₃, hprojected, rfl⟩, _, _, hstore, _, _, ⟨v₄, happly, rfl⟩, -, rfl⟩ := h
      obtain ⟨hnonce, pending, hpending, -, hrecord⟩ := hplan plan rfl
      cases newEvent_spec hevent
      obtain ⟨rfl, rfl⟩ := TrustVerifier.projectedState_spec hpending hprojected
      obtain ⟨ledger, hposts, rfl⟩ := storeCommit_spec hstore
      obtain ⟨hsame₄, hrecords₄⟩ := TrustVerifier.applyCommit_spec hpending happly
      obtain ⟨hsigned, hevidence⟩ := TrustVerifier.previewChecks_spec hvalid (hchecks hd)
      have hledger₁ : s₁.ledger = s.ledger := by rw [hadapter]
      have hstate₁ : s₁.entityState = s.entityState := by rw [hadapter]
      have hrecord' : pending.record = recordAfter (storedRecords s) p.request decision.action := by
        rw [hrecord, recordAfter, hrecords₁]
      refine .inr ⟨p, decision.action, e.eventId, hvalid, hpayer, hpayee, ?_, ?_, ?_, ?_, ?_, ?_, ?_⟩
      · exact (TrustVerifier.SameRegistries.signed ⟨hsame.keys.symm, hsame.mandates.symm,
          hsame.authenticationEvidence.symm⟩ hsigned)
      · exact hrecords₁ ▸ hnonce
      · exact hstored ▸ hevidence
      · exact hledger₁ ▸ hposts
      · show s₁.entityState.set trustStateId _ = _
        rw [hstate₁, hrecords₂, hrecords₁, hrecord']
      · exact (hsame₁.trans hsame₂).trans hsame₄
      · show v₄.records = _
        rw [hrecords₄, hrecords₂, hrecords₁, hrecord']
  · rw [if_neg hd] at h
    simp only [bind_eq_ok, pure_eq_ok] at h
    obtain ⟨e, _, hevent, -, rfl⟩ := h
    rw [newEvent_spec hevent, hadapter]
    exact .inl ⟨rfl, rfl, hsame₁, hrecords₁⟩

/-! ## Runs -/

/-- a record is of a request -/
structure RecordOf [Sha256] (request : AgentPaymentRequest) (record : StateRecord) : Prop where
  agentId : record.agentId = request.agentId
  nonce : record.nonce = request.nonce
  evidenceRef : record.evidenceRef = request.evidenceRef
  requestHash : record.requestHash = Sha256.hexdigest request.signingJson
  signatureHash : record.signatureHash = Sha256.hexdigestBytes request.signature

/-- a ledger entry moves the amount of a request from its user to its payee -/
structure Moves (request : AgentPaymentRequest) (entry : LedgerEntry) : Prop where
  debit : entry.debit.items = [(request.mandate.userRef, request.amount)]
  credit : entry.credit.items = [(request.payeeId, request.amount)]
  currency : entry.currency = request.currency

/-- the approved records -/
def approved (records : List StateRecord) : List StateRecord :=
  records.filter fun r => r.outcome = ReceiptOutcome.approve.value

/-- the three stores agree -/
structure Inv [Sha256] [Ed25519] (verifier : TrustVerifier) (s : AgenticEngine γ) : Prop where
  registries : TrustVerifier.SameRegistries verifier s.adapter.verifier
  records : s.adapter.verifier.records = storedRecords s
  stored : s.entityState.get? trustStateId = none ∧ storedRecords s = [] ∨
    s.entityState.get? trustStateId = some ⟨1, storedRecords s⟩
  valid : Records (storedRecords s)
  requests : ∃ requests : List AgentPaymentRequest, (∀ r ∈ requests, verifier.Signed r) ∧
    List.Forall₂ RecordOf requests (approved (storedRecords s)) ∧ List.Forall₂ Moves requests s.ledger.entries

theorem recordOf_recordAfter [Sha256] (records : List StateRecord) (request : AgentPaymentRequest) (action : Action) :
    RecordOf request (recordAfter records request action) := ⟨rfl, rfl, rfl, rfl, rfl⟩

theorem normalizeDict_single {currency account : String} {amount : Decimal} {legs : Dict String Decimal} {k : ℕ}
    (hk : currencyExponent? currency = some k) (hq : amount.quantize ctx (-(k : ℤ)) = some amount)
    (h : Ledger.normalizeDict ctx currency (.ofList [(account, amount)]) = .ok legs) :
    legs.items = [(account, amount)] := by
  have hitems := Ledger.normalizeDict_items h
  rw [Dict.items_ofList (by simp)] at hitems
  simp only [Ledger.normalizeLegs, except_bind_eq_ok, except_pure_eq_ok, Ledger.quantizeAmount_eq_ok] at hitems
  obtain ⟨_, -, _, -, value, ⟨k', hk', hq'⟩, rest, hrest, hlegs⟩ := hitems
  cases hrest
  rw [hk, Option.some.injEq] at hk'
  subst hk'
  rw [hq, Option.some.injEq] at hq'
  rw [← hlegs, hq']

theorem moves_of_post {p : AgenticPayment} {u : Unit} (hvalid : p.request.validate ctx = .ok u)
    (hpayer : p.payerAccount = p.request.mandate.userRef) (hpayee : p.payeeAccount = p.request.payeeId)
    {eventId : String} {before after : Ledger} (h : before.post ctx (paymentEntry p eventId) = .ok after) :
    ∃ entry, after.entries = before.entries ++ [entry] ∧ Moves p.request entry := by
  obtain ⟨debits, credits, k, hk, hdebits, hcredits, -, -, hentries, -, -⟩ := Ledger.post_spec h
  obtain ⟨k', hk', hq⟩ := (TrustVerifier.validate_spec hvalid).1
  refine ⟨_, hentries, ?_, ?_, rfl⟩
  · rw [← hpayer]
    exact normalizeDict_single hk' hq hdebits
  · rw [← hpayee]
    exact normalizeDict_single hk' hq hcredits

theorem storedRecords_set {state : TrustState} {d : Dict String TrustState}
    (h : s.entityState = d.set trustStateId state) : storedRecords s = state.records := by
  rw [storedRecords, h, Dict.get?_set_self]
  rfl

/-- **Step.** A command keeps the agreement of the three stores. -/
theorem Inv.commit [Sha256] [Ed25519] {verifier : TrustVerifier} {ctx : DecimalContext} {s s' : AgenticEngine γ}
    (hs : Inv verifier s) {p : AgenticPayment} {action : Action} {eventId : String}
    (h : Commits ctx s s' p action eventId) : Inv verifier s' := by
  have hstored := storedRecords_set h.entityState
  refine ⟨hs.registries.trans h.registries, ?_, ?_, ?_, ?_⟩
  · rw [hstored]
    exact h.records
  · right
    rw [hstored, h.entityState, Dict.get?_set_self]
  · rw [hstored]
    exact hs.valid.commit (TrustVerifier.nonceUsed_eq_false.1 h.nonce) h.evidence rfl
  · obtain ⟨requests, hsigned, hrecords, hmoves⟩ := hs.requests
    have happroved : approved (storedRecords s') = approved (storedRecords s) ++
        if action = .approve then [recordAfter (storedRecords s) p.request action] else [] := by
      rw [hstored, approved, List.filter_append]
      cases action <;> rfl
    have hledger := h.ledger
    rw [happroved]
    by_cases ha : action = .approve
    · subst ha
      obtain ⟨entry, hentries, hmove⟩ := moves_of_post h.valid h.payer h.payee hledger
      refine ⟨requests ++ [p.request], ?_, ?_, ?_⟩
      · intro r hr
        rcases List.mem_append.1 hr with hr | hr
        · exact hsigned r hr
        · rw [List.mem_singleton.1 hr]
          exact TrustVerifier.SameRegistries.signed ⟨hs.registries.keys.symm, hs.registries.mandates.symm,
            hs.registries.authenticationEvidence.symm⟩ h.signed
      · rw [if_pos rfl]
        exact List.rel_append hrecords (List.Forall₂.cons (recordOf_recordAfter _ _ _) List.Forall₂.nil)
      · rw [hentries]
        exact List.rel_append hmoves (List.Forall₂.cons hmove List.Forall₂.nil)
    · have hsame : s'.ledger = s.ledger := by
        cases action with
        | approve => exact absurd rfl ha
        | challenge => exact hledger
        | decline => exact hledger
      rw [if_neg ha, List.append_nil, hsame]
      exact ⟨requests, hsigned, hrecords, hmoves⟩

theorem Inv.idle [Sha256] [Ed25519] (hs : Inv verifier s) (h : Idle s s') : Inv verifier s' := by
  have hstored : storedRecords s' = storedRecords s := by rw [storedRecords, h.entityState]; rfl
  refine ⟨hs.registries.trans h.registries, ?_, ?_, ?_, ?_⟩
  · rw [hstored]
    exact h.records
  · rw [hstored, h.entityState]
    exact hs.stored
  · rw [hstored]
    exact hs.valid
  · rw [hstored, h.ledger]
    exact hs.requests

theorem Inv.same [Sha256] [Ed25519] (hs : Inv verifier s) (hadapter : s'.adapter = s.adapter)
    (hstate : s'.entityState = s.entityState) (hledger : s'.ledger = s.ledger) : Inv verifier s' :=
  hs.idle ⟨hledger, hstate, by rw [hadapter]; exact ⟨rfl, rfl, rfl⟩, by rw [hadapter]; exact hs.records⟩

theorem inv_preserved [Sha256] [Ed25519] (verifier : TrustVerifier) (scorer : RiskScorer γ) (ctx : DecimalContext) :
    Engine.Preserved (adapter scorer ctx) (Inv verifier) where
  books := by
    intro s s' hs hsame
    rw [hsame]
    exact hs.same rfl rfl rfl
  init := by
    intro s s' u hs hinit
    simp only [adapter, init, bind_eq_ok, get_eq_ok, guard_eq_ok] at hinit
    obtain ⟨_, _, ⟨rfl, rfl⟩, -, rfl⟩ := hinit
    exact hs
  turn := by
    intro s s₁ s' command emitted hs hhandle happend
    obtain ⟨-, -, hs'⟩ := Engine.appendBatch_spec happend
    have hinv : Inv verifier s₁ := by
      rcases handle_spec hhandle with hidle | ⟨p, action, eventId, hcommits⟩
      · exact hs.idle hidle
      · exact hs.commit hcommits
    rw [hs']
    exact hinv.same rfl rfl rfl

theorem inv_fresh [Sha256] [Ed25519] (hrecords : verifier.records = []) {ledger : Ledger}
    (hentries : ledger.entries = []) (rail : Rail) (viewpoint : String) (uuidPrefix : ℕ) (start : Time) (g : γ) :
    Inv verifier (Engine.fresh rail viewpoint uuidPrefix start ledger ⟨verifier, g⟩) := by
  refine ⟨⟨rfl, rfl, rfl⟩, hrecords, .inl ⟨rfl, rfl⟩, records_nil, [], ?_, List.Forall₂.nil, ?_⟩
  · intro r hr
    cases hr
  · show List.Forall₂ Moves [] ledger.entries
    rw [hentries]
    exact List.Forall₂.nil

theorem requests_nodup [Sha256] {records : List StateRecord} (h : Records records) {requests : List AgentPaymentRequest}
    (hof : List.Forall₂ RecordOf requests (approved records)) :
    (requests.map fun r => (r.agentId, r.nonce)).Nodup := by
  have hmap : requests.map (fun r => (r.agentId, r.nonce)) =
      (approved records).map fun r => (r.agentId, r.nonce) := by
    rw [← List.forall₂_eq_eq_eq, List.forall₂_map_left_iff, List.forall₂_map_right_iff]
    exact hof.imp fun request record h => by rw [h.agentId, h.nonce]
  rw [hmap]
  exact h.nonces.sublist (List.filter_sublist.map _)

end Agentic

/-- **One signed request moves value at most once.** In every healthy state of every run, whatever the scorer does, the
verifier's records are the stored ones, a nonce and an evidence reference are in one record at most, the records of each
agent form a receipt chain from the empty receipt, and the ledger entries are in order those of the approved records,
each moving the amount of its request from the mandate's user to the payee; these requests are signed and distinct. -/
theorem agentic_commits_once [Sha256] [Ed25519] {γ : Type} (scorer : RiskScorer γ) (ctx : DecimalContext)
    {registeredAgents : Dict (String × String) (List UInt8)} {mandates : Dict String AgentMandate}
    {authenticationEvidence : Dict String AuthenticationEvidence} {verifier : TrustVerifier}
    (hverifier : TrustVerifier.create registeredAgents mandates authenticationEvidence = .ok verifier)
    {opening : Dict AccountReference Decimal} {allow : List AccountReference} {ledger : Ledger}
    (hledger : Ledger.create ctx opening allow = .ok ledger) (rail : Rail) (viewpoint : String)
    (head b6 b7 b8 b9 : ℕ) (start : Time) (g : γ) (calls : List (Engine.EngineCall AgenticCommand))
    (s : AgenticEngine γ)
    (hs : s = Engine.afterCalls (Agentic.adapter scorer ctx)
      (Engine.fresh rail viewpoint (Engine.versionedPrefix head b6 b7 b8 b9) start ledger ⟨verifier, g⟩) calls)
    (hf : s.failure = none) :
    (s.entityState.get? Agentic.trustStateId = none ∧ s.adapter.verifier.records = [] ∨
      s.entityState.get? Agentic.trustStateId = some ⟨1, s.adapter.verifier.records⟩) ∧
    (s.adapter.verifier.records.map fun r => (r.agentId, r.nonce)).Nodup ∧
    ((s.adapter.verifier.records.map StateRecord.evidenceRef).filter (· ≠ "")).Nodup ∧
    (∀ agentId, ReceiptChain "" (s.adapter.verifier.records.filter fun r => r.agentId = agentId)) ∧
    ∃ requests : List AgentPaymentRequest,
      (requests.map fun r => (r.agentId, r.nonce)).Nodup ∧
      (∀ r ∈ requests, verifier.Signed r) ∧
      List.Forall₂ Agentic.RecordOf requests
        (s.adapter.verifier.records.filter fun r => r.outcome = ReceiptOutcome.approve.value) ∧
      List.Forall₂ Agentic.Moves requests s.ledger.entries := by
  have hempty : verifier.records = [] := by
    simp only [TrustVerifier.create, except_bind_eq_ok, except_pure_eq_ok] at hverifier
    obtain ⟨_, -, _, -, _, -, rfl⟩ := hverifier
    rfl
  have hinv : Agentic.Inv verifier s := by
    subst hs
    exact Engine.calls_inv (Agentic.inv_preserved verifier scorer ctx) calls
      (Agentic.inv_fresh hempty (Ledger.create_posted hledger).2 rail viewpoint _ start g) hf
  obtain ⟨requests, hsigned, hrecords, hmoves⟩ := hinv.requests
  rw [hinv.records]
  exact ⟨hinv.stored, hinv.valid.nonces, hinv.valid.evidence, hinv.valid.chain, requests,
    Agentic.requests_nodup hinv.valid hrecords, hsigned, hrecords, hmoves⟩

namespace Agentic

/-- one digest for every text -/
@[reducible] def sampleDigest : Sha256 :=
  ⟨fun _ => String.ofList (List.replicate 64 '0'), fun _ => String.ofList (List.replicate 64 '0')⟩

/-- a scheme in which every key is good and every signature verifies -/
@[reducible] def sampleScheme : Ed25519 := ⟨fun _ => true, fun _ _ _ => true⟩

def sampleHash : String := String.ofList (List.replicate 64 '0')

def sampleMandate : AgentMandate where
  mandateId := "m1"
  version := 1
  agentId := "a1"
  userRef := "user"
  userEntityId := Uuid.formatUuid 1
  beneficiaryEntityId := Uuid.formatUuid 2
  consentRef := "consent"
  merchantId := "merchant"
  payeeId := "payee"
  cartHash := sampleHash
  paymentIntentHash := sampleHash
  permittedCategories := ["books"]
  permittedProducts := ["p"]
  credentialId := "c1"
  credentialScope := "pay"
  requiredAuthentication := .none
  maxAmount := ⟨500, -2⟩
  currency := "USD"
  issuedAt := 0
  expiresAt := 100

def sampleRequest : AgentPaymentRequest where
  requestId := "r1"
  paymentId := "p1"
  agentId := "a1"
  keyId := "k1"
  mandate := sampleMandate
  amount := ⟨200, -2⟩
  currency := "USD"
  merchantId := "merchant"
  payeeId := "payee"
  cartHash := sampleHash
  paymentIntentHash := sampleHash
  category := "books"
  productId := "p"
  credentialId := "c1"
  credentialScope := "pay"
  consentRef := "consent"
  authenticationEvidenceRef := none
  nonce := "n1"
  createdAt := 0
  expiresAt := 50
  priorReceiptHash := ""
  campaignId := Uuid.formatUuid 3
  traceId := Uuid.formatUuid 4
  actorId := Uuid.formatUuid 1
  counterpartyId := Uuid.formatUuid 2
  signature := [1, 2]

def sampleCommand : AgenticCommand := ⟨true, "agentic.pay", payload ⟨sampleRequest, "user", "payee"⟩⟩

/-- the same signed request twice -/
def sampleCalls : List (Engine.EngineCall AgenticCommand) :=
  [.schedule 1 0 sampleCommand, .schedule 2 0 sampleCommand, .run 2 none]

def sampleAgents : Dict (String × String) (List UInt8) := .ofList [(("a1", "k1"), List.replicate 32 0)]

def sampleVerifier : TrustVerifier := ⟨sampleAgents, .ofList [("m1", sampleMandate)], ∅, [], none, none, 0⟩

def sampleLedger : Ledger := ((Ledger.create .default ∅ [.account "user"]).toOption).getD ⟨[], ∅, [], []⟩

def sampleRun : AgenticEngine Unit :=
  letI := sampleDigest
  letI := sampleScheme
  Engine.afterCalls (adapter (fun _ _ => pure .approve) .default)
    (Engine.fresh .agentic "development" (Engine.versionedPrefix 1 2 3 4 5) 0 sampleLedger ⟨sampleVerifier, ()⟩)
    sampleCalls

theorem sampleRun_eval : sampleRun.failure = none ∧
    (sampleRun.events.map PaymentEvent.eventType) = [.authorization, .authorizationDeclined] ∧
    (sampleRun.ledger.entries.map fun e => (e.debit.items, e.currency)) = [([("user", ⟨200, -2⟩)], "USD")] := by
  decide +kernel

theorem sampleVerifier_created :
    letI := sampleScheme
    TrustVerifier.create sampleAgents (.ofList [("m1", sampleMandate)]) ∅ = .ok sampleVerifier := rfl

theorem sampleLedger_created : Ledger.create .default ∅ [.account "user"] = .ok sampleLedger := rfl

end Agentic

/-- the second command is a replay: the records are stored and the value moved once -/
theorem agentic_commits_once_sample :
    (Agentic.sampleRun.adapter.verifier.records.map fun r => (r.agentId, r.nonce)).Nodup ∧
    Agentic.sampleRun.events.length = 2 ∧ Agentic.sampleRun.ledger.entries.length = 1 := by
  let _ : Sha256 := Agentic.sampleDigest
  let _ : Ed25519 := Agentic.sampleScheme
  obtain ⟨hhealthy, hevents, hentries⟩ := Agentic.sampleRun_eval
  refine ⟨?_, by simpa using congrArg List.length hevents, by simpa using congrArg List.length hentries⟩
  exact (agentic_commits_once (fun _ _ => pure .approve) .default Agentic.sampleVerifier_created
    Agentic.sampleLedger_created .agentic "development" 1 2 3 4 5 0 () Agentic.sampleCalls Agentic.sampleRun rfl
    hhealthy).2.1

end Apar
