/-
What the trust verifier's records satisfy, and what each method does to them.

`Records` is the invariant: an agent uses a nonce once, a step-up evidence reference is used once, and the records of
each agent form a receipt chain that starts at the empty receipt. Committing keeps it (`Records.commit`); nothing else
changes the records.

- `previewChecks_spec`: what a request that passes the preview satisfies.
- `preview_spec`, `prepareCommit_spec`, `applyCommit_spec`: the methods, as the rail uses them.
- `loadState_spec`: loading makes the stored records the verifier's.
-/
import Apar.Trust.Verifier

namespace Apar

open Exec

/-! ## Receipt chains -/

/-- each record continues from the receipt of the one before it -/
def ReceiptChain : String → List StateRecord → Prop
  | _, [] => True
  | previous, r :: rest => r.previousReceiptHash = previous ∧ ReceiptChain r.receiptHash rest

theorem receiptChain_append {previous : String} {records : List StateRecord} {r : StateRecord} :
    ReceiptChain previous (records ++ [r]) ↔ ReceiptChain previous records ∧
      r.previousReceiptHash = (records.getLast?.map StateRecord.receiptHash).getD previous := by
  induction records generalizing previous with
  | nil => simp [ReceiptChain]
  | cons x xs ih =>
    rw [List.cons_append, ReceiptChain, ReceiptChain, ih, and_assoc]
    refine and_congr_right fun _ => and_congr_right fun _ => ?_
    cases xs with
    | nil => rfl
    | cons y ys => simp [List.getLast?_cons]

/-- the records of a verifier -/
structure Records (records : List StateRecord) : Prop where
  nonces : (records.map fun r => (r.agentId, r.nonce)).Nodup
  evidence : ((records.map StateRecord.evidenceRef).filter (· ≠ "")).Nodup
  chain : ∀ agentId, ReceiptChain "" (records.filter fun r => r.agentId = agentId)

theorem records_nil : Records [] := by
  refine ⟨?_, ?_, ?_⟩ <;> simp [ReceiptChain]

namespace TrustVerifier

theorem lastReceipt_eq (records : List StateRecord) (agentId : String) :
    lastReceipt records agentId =
      ((records.filter fun r => r.agentId = agentId).getLast?.map StateRecord.receiptHash).getD "" := by
  unfold lastReceipt
  rw [← List.head?_filter, List.filter_reverse, List.head?_reverse]

end TrustVerifier

/-- **Commit.** A record with a fresh nonce, a fresh evidence reference and the agent's last receipt extends the
records. -/
theorem Records.commit {records : List StateRecord} (h : Records records) {r : StateRecord}
    (hnonce : ∀ x ∈ records, x.agentId = r.agentId → x.nonce ≠ r.nonce)
    (hevidence : r.evidenceRef ≠ "" → ∀ x ∈ records, x.evidenceRef ≠ r.evidenceRef)
    (hprevious : r.previousReceiptHash = TrustVerifier.lastReceipt records r.agentId) : Records (records ++ [r]) := by
  refine ⟨?_, ?_, ?_⟩
  · rw [List.map_append, List.nodup_append]
    refine ⟨h.nonces, by simp, ?_⟩
    intro p hp q hq hpq
    obtain ⟨x, hx, rfl⟩ := List.mem_map.1 hp
    rw [List.map_singleton, List.mem_singleton] at hq
    rw [hq, Prod.mk.injEq] at hpq
    exact hnonce x hx hpq.1 hpq.2
  · rw [List.map_append, List.filter_append, List.nodup_append]
    refine ⟨h.evidence, (List.nodup_singleton _).filter _, ?_⟩
    intro i hi j hj hij
    rw [List.mem_filter] at hi hj
    obtain ⟨x, hx, rfl⟩ := List.mem_map.1 hi.1
    have hj' : j = r.evidenceRef := by simpa using hj.1
    refine hevidence ?_ x hx (hij.trans hj')
    simpa [hj'] using hj.2
  · intro agentId
    rw [List.filter_append]
    rcases eq_or_ne r.agentId agentId with rfl | hne
    · rw [List.filter_singleton, decide_eq_true rfl, Bool.cond_true, receiptChain_append]
      exact ⟨h.chain _, hprevious.trans (TrustVerifier.lastReceipt_eq _ _)⟩
    · rw [List.filter_singleton, decide_eq_false hne, Bool.cond_false, List.append_nil]
      exact h.chain agentId

/-! ## The checks of a request -/

namespace AgentMandate

theorem requiredAuthentication_of_canonicalRows {m m' : AgentMandate} (h : m.canonicalRows = m'.canonicalRows) :
    m.requiredAuthentication = m'.requiredAuthentication := by
  simp only [canonicalRows, List.cons.injEq, and_true, true_and] at h
  obtain ⟨-, -, -, -, -, -, -, -, -, -, -, -, -, -, -, hvalue, -⟩ := h
  cases hm : m.requiredAuthentication <;> cases hm' : m'.requiredAuthentication <;>
    simp [hm, hm', AuthenticationRequirement.value] at hvalue ⊢

end AgentMandate

namespace TrustVerifier

@[simp] theorem require_eq_ok {c : Bool} {reason : ReasonCode} {u : Unit} : require c reason = .ok u ↔ c = true := by
  cases c <;> simp [require]

/-- a registered key of the agent verifies the signature of the request -/
def Signed [Sha256] [Ed25519] (v : TrustVerifier) (request : AgentPaymentRequest) : Prop :=
  ∃ publicKey, v.keys.get? (request.agentId, request.keyId) = some publicKey ∧
    Ed25519.verify publicKey request.signature request.signingJson = true

/-- the evidence reference of the request, if any, is in no record -/
def FreshEvidence (records : List StateRecord) (request : AgentPaymentRequest) : Prop :=
  request.evidenceRef ≠ "" → ∀ r ∈ records, r.evidenceRef ≠ request.evidenceRef

theorem checkMoney_spec {ctx : DecimalContext} {label : String} {amount : Decimal} {currency : String} {u : Unit}
    (h : checkMoney ctx label amount currency = .ok u) :
    ∃ k, currencyExponent? currency = some k ∧ amount.quantize ctx (-(k : ℤ)) = some amount := by
  unfold checkMoney at h
  rw [except_bind_eq_ok] at h
  obtain ⟨_, -, h⟩ := h
  cases hk : currencyExponent? currency with
  | none => simp [hk] at h
  | some k =>
    cases hq : amount.quantize ctx (-(k : ℤ)) with
    | none => simp [hk, hq] at h
    | some quantized =>
      simp only [hk, hq, except_bind_eq_ok, check_eq_ok, decide_eq_true_eq] at h
      obtain ⟨_, -, rfl⟩ := h
      exact ⟨k, rfl, hq⟩

variable {request : AgentPaymentRequest} {v v' : TrustVerifier} {receipt : IntegrityReceipt} {plan : TrustCommitPlan}

theorem validate_spec {ctx : DecimalContext} {u : Unit} (h : request.validate ctx = .ok u) :
    (∃ k, currencyExponent? request.currency = some k ∧
      request.amount.quantize ctx (-(k : ℤ)) = some request.amount) ∧
    (request.mandate.requiredAuthentication = .none → request.authenticationEvidenceRef = none) := by
  unfold AgentPaymentRequest.validate at h
  simp only [except_bind_eq_ok] at h
  obtain ⟨_, -, _, -, _, -, _, -, _, -, _, hmoney, _, -, _, -, _, -, _, -, _, -, h⟩ := h
  obtain ⟨_, -, _, -, _, -, _, -, _, hreference, -⟩ := h
  refine ⟨checkMoney_spec hmoney, fun hnone => ?_⟩
  cases hr : request.authenticationEvidenceRef with
  | none => rfl
  | some reference => simp [hnone, hr, AgentPaymentRequest.checkEvidenceRef] at hreference

theorem nonceUsed_eq_false {records : List StateRecord} :
    nonceUsed records request = false ↔ ∀ r ∈ records, r.agentId = request.agentId → r.nonce ≠ request.nonce := by
  unfold nonceUsed
  rw [List.any_eq_false]
  simp

theorem approvedMandate_spec {approved : AgentMandate} (h : v.approvedMandate request = .ok approved) :
    request.mandate.canonicalRows = approved.canonicalRows := by
  unfold approvedMandate at h
  cases hm : v.mandates.get? request.mandate.mandateId with
  | none => simp [hm] at h
  | some m =>
    simp only [hm, except_bind_eq_ok, require_eq_ok, except_pure_eq_ok, Bool.and_eq_true, decide_eq_true_eq] at h
    obtain ⟨_, ⟨hrows, -⟩, rfl⟩ := h
    exact hrows

/-- **Preview.** A valid request that passes the preview is signed and its step-up evidence is fresh. -/
theorem previewChecks_spec [Sha256] [Ed25519] {now : Time} {ctx : DecimalContext} {u u' : Unit}
    (hvalid : request.validate ctx = .ok u') (h : v.previewChecks request now = .ok u) :
    v.Signed request ∧ FreshEvidence v.records request := by
  unfold previewChecks at h
  simp only [except_bind_eq_ok] at h
  obtain ⟨_, hkey, approved, happroved, _, -, _, -, _, -, hevidence⟩ := h
  constructor
  · unfold signatureKey? at hkey
    cases hk : v.keys.get? (request.agentId, request.keyId) with
    | none => simp [hk] at hkey
    | some publicKey =>
      rw [hk] at hkey
      exact ⟨publicKey, hk, require_eq_ok.1 hkey⟩
  · have hrequired := AgentMandate.requiredAuthentication_of_canonicalRows (approvedMandate_spec happroved)
    intro hne
    cases happ : approved.requiredAuthentication with
    | none =>
      have := (validate_spec hvalid).2 (hrequired.trans happ)
      exact absurd (by rw [AgentPaymentRequest.evidenceRef, this]; rfl) hne
    | stepUp =>
      unfold checkEvidence at hevidence
      rw [happ] at hevidence
      cases href : request.authenticationEvidenceRef with
      | none => simp [href] at hevidence
      | some reference =>
        simp only [href, except_bind_eq_ok, require_eq_ok] at hevidence
        obtain ⟨_, hfresh, -⟩ := hevidence
        have hreference : request.evidenceRef = reference := by rw [AgentPaymentRequest.evidenceRef, href]; rfl
        rw [hreference] at hne ⊢
        intro r hr heq
        simp only [Bool.not_eq_true', List.any_eq_false, Bool.and_eq_true, decide_eq_true_eq] at hfresh
        exact hfresh r hr ⟨heq ▸ hne, heq⟩

/-! ## The methods -/

/-- a method that leaves the registries as they are -/
structure SameRegistries (v v' : TrustVerifier) : Prop where
  keys : v'.keys = v.keys
  mandates : v'.mandates = v.mandates
  authenticationEvidence : v'.authenticationEvidence = v.authenticationEvidence

theorem SameRegistries.trans {v v' v'' : TrustVerifier} (h : SameRegistries v v') (h' : SameRegistries v' v'') :
    SameRegistries v v'' :=
  ⟨h'.keys.trans h.keys, h'.mandates.trans h.mandates, h'.authenticationEvidence.trans h.authenticationEvidence⟩

theorem SameRegistries.signed [Sha256] [Ed25519] (h : SameRegistries v v') (hs : v.Signed request) :
    v'.Signed request := by
  unfold Signed
  rw [h.keys]
  exact hs

@[simp] theorem revokeEphemeral_eq_ok {u : Unit} :
    revokeEphemeral v = .ok u v' ↔ { v with pendingPreview := none, pendingCommit := none } = v' := modify_eq_ok

@[simp] theorem issue_eq_ok {α : Type} {value : α} {handle : Handle α} :
    issue value v = .ok handle v' ↔ handle = ⟨value, v.issued⟩ ∧ { v with issued := v.issued + 1 } = v' := by
  simp only [issue, bind_eq_ok, get_eq_ok, set_eq_ok, pure_eq_ok]
  constructor
  · rintro ⟨_, _, ⟨rfl, rfl⟩, _, _, rfl, rfl, rfl⟩
    exact ⟨rfl, rfl⟩
  · rintro ⟨rfl, rfl⟩
    exact ⟨v, v, ⟨rfl, rfl⟩, ⟨⟩, _, rfl, rfl, rfl⟩

theorem preview_spec [Sha256] [Ed25519] {now : Time} {handle : Handle IntegrityReceipt}
    (h : preview request now v = .ok handle v') :
    SameRegistries v v' ∧ v'.records = v.records ∧
      (handle.value.allowed = true → v.previewChecks request now = .ok ()) := by
  simp only [preview, bind_eq_ok, revokeEphemeral_eq_ok, get_eq_ok] at h
  obtain ⟨_, _, rfl, _, _, ⟨rfl, rfl⟩, h⟩ := h
  have hchecks : previewChecks { v with pendingPreview := none, pendingCommit := none } request now =
      v.previewChecks request now := rfl
  rw [hchecks] at h
  cases hc : v.previewChecks request now with
  | error stop =>
    rw [hc] at h
    cases stop with
    | raise e => exact absurd h (by simp)
    | refuse reason =>
      simp only [issue_eq_ok] at h
      obtain ⟨rfl, rfl⟩ := h
      exact ⟨⟨rfl, rfl, rfl⟩, rfl, fun hallowed => absurd hallowed (by simp [failure])⟩
  | ok u =>
    rw [hc] at h
    simp only [bind_eq_ok, issue_eq_ok, modify_eq_ok, pure_eq_ok] at h
    obtain ⟨_, _, ⟨rfl, rfl⟩, _, _, rfl, rfl, rfl⟩ := h
    exact ⟨⟨rfl, rfl, rfl⟩, rfl, fun _ => rfl⟩

theorem commitChecks_nonce [Sha256] {now : Time} {issuedPreview : Option (Handle IntegrityReceipt × Time)} {u : Unit}
    (h : v.commitChecks request receipt now issuedPreview = .ok u) : nonceUsed v.records request = false := by
  unfold commitChecks at h
  simp only [except_bind_eq_ok, require_eq_ok, Bool.not_eq_true'] at h
  obtain ⟨_, -, _, -, _, -, _, -, _, hnonce, -⟩ := h
  exact hnonce

/-- **Prepare.** A plan is the receipt and the record of the request, whose nonce is unused; the records stay. -/
theorem prepareCommit_spec [Sha256] {outcome : ReceiptOutcome} {now : Time}
    {prepared : TrustCommitPlan ⊕ IntegrityReceipt} (h : prepareCommit request receipt outcome now v = .ok prepared v')
    :
    SameRegistries v v' ∧ v'.records = v.records ∧ ∀ plan, prepared = .inl plan →
      nonceUsed v.records request = false ∧
        ∃ pending, v'.pendingCommit = some pending ∧ pending.capability = plan ∧
          pending.record = stateRecord request (allowedReceipt request (lastReceipt v.records request.agentId) outcome) := by
  simp only [prepareCommit, takePendingPreview, bind_eq_ok, revokeEphemeral_eq_ok, get_eq_ok, guard_eq_ok,
    pure_eq_ok] at h
  obtain ⟨_, _, ⟨_, _, ⟨rfl, rfl⟩, _, _, rfl, rfl, rfl⟩, _, _, ⟨-, rfl⟩, _, _, ⟨rfl, rfl⟩, h⟩ := h
  cases hc : commitChecks { v with pendingPreview := none, pendingCommit := none } request receipt now
      v.pendingPreview with
  | error stop =>
    rw [hc] at h
    cases stop with
    | raise e => exact absurd h (by simp)
    | refuse reason =>
      simp only [pure_eq_ok] at h
      obtain ⟨rfl, rfl⟩ := h
      exact ⟨⟨rfl, rfl, rfl⟩, rfl, fun plan hplan => by cases hplan⟩
  | ok u =>
    rw [hc] at h
    simp only [bind_eq_ok, issue_eq_ok, modify_eq_ok, pure_eq_ok] at h
    obtain ⟨_, _, ⟨rfl, rfl⟩, _, _, rfl, rfl, rfl⟩ := h
    refine ⟨⟨rfl, rfl, rfl⟩, rfl, fun plan hplan => ⟨commitChecks_nonce hc, _, rfl, ?_, rfl⟩⟩
    exact Sum.inl.inj hplan

theorem pendingFor_eq_ok {pending p : PendingCommit} (hp : v.pendingCommit = some pending)
    (h : v.pendingFor plan = .ok p) : p = pending := by
  unfold pendingFor at h
  simp only [hp] at h
  split_ifs at h
  exact (Except.ok.inj h).symm

theorem projectedState_spec {state : TrustState} {pending : PendingCommit} (hp : v.pendingCommit = some pending)
    (h : projectedState plan v = .ok state v') : v' = v ∧ state = ⟨1, v.records ++ [pending.record]⟩ := by
  simp only [projectedState, bind_eq_ok, get_eq_ok, raising_eq_ok, pure_eq_ok] at h
  obtain ⟨_, _, ⟨rfl, rfl⟩, p, _, ⟨hpending, rfl⟩, rfl, rfl⟩ := h
  rw [pendingFor_eq_ok hp hpending]
  exact ⟨rfl, rfl⟩

/-- **Apply.** The records grow by the record of the pending plan. -/
theorem applyCommit_spec {pending : PendingCommit} (hp : v.pendingCommit = some pending)
    (h : applyCommit plan v = .ok receipt v') : SameRegistries v v' ∧ v'.records = v.records ++ [pending.record] := by
  simp only [applyCommit, bind_eq_ok, get_eq_ok, revokeEphemeral_eq_ok, raising_eq_ok, modify_eq_ok, pure_eq_ok] at h
  obtain ⟨_, _, ⟨rfl, rfl⟩, _, _, rfl, p, _, ⟨hpending, rfl⟩, _, _, rfl, -, rfl⟩ := h
  rw [pendingFor_eq_ok hp hpending]
  exact ⟨⟨rfl, rfl, rfl⟩, rfl⟩

theorem ofValue?_value {s : String} {outcome : ReceiptOutcome} (h : ReceiptOutcome.ofValue? s = some outcome) :
    outcome.value = s := by
  unfold ReceiptOutcome.ofValue? at h
  simpa using List.find?_some h

theorem loadRecord_records [Sha256] {l l' : Loading} {r : StateRecord} (h : v.loadRecord l r = .ok l') :
    l'.records = l.records ++ [r] := by
  unfold loadRecord at h
  simp only [except_bind_eq_ok] at h
  obtain ⟨_, -, _, -, _, -, _, -, _, -, _, -, _, -, h⟩ := h
  cases ho : ReceiptOutcome.ofValue? r.outcome with
  | none => simp [ho] at h
  | some outcome =>
    simp only [ho, except_bind_eq_ok, except_pure_eq_ok] at h
    obtain ⟨_, -, _, -, _, -, _, -, _, -, _, -, rfl⟩ := h
    rw [ofValue?_value ho]

/-- **Load.** The stored records become the verifier's. -/
theorem loadState_spec [Sha256] {state : TrustState} {u : Unit} (h : loadState state v = .ok u v') :
    SameRegistries v v' ∧ v'.records = state.records := by
  simp only [loadState, bind_eq_ok, get_eq_ok] at h
  obtain ⟨_, _, ⟨rfl, rfl⟩, h⟩ := h
  cases hl : v.loadRecords state with
  | error e => simp [hl] at h
  | ok records =>
    simp only [hl, set_eq_ok] at h
    subst h
    refine ⟨⟨rfl, rfl, rfl⟩, ?_⟩
    simp only [loadRecords, except_bind_eq_ok, except_pure_eq_ok] at hl
    obtain ⟨_, -, l, hfold, rfl⟩ := hl
    have hrun : ∀ (rs : List StateRecord) (l₀ l₁ : Loading), rs.foldlM v.loadRecord l₀ = .ok l₁ →
        l₁.records = l₀.records ++ rs := by
      intro rs
      induction rs with
      | nil =>
        intro l₀ l₁ h₀
        cases h₀
        simp
      | cons r rs ih =>
        intro l₀ l₁ h₀
        rw [List.foldlM_cons, except_bind_eq_ok] at h₀
        obtain ⟨l', hstep, hrest⟩ := h₀
        rw [ih _ _ hrest, loadRecord_records hstep]
        simp
    simpa using hrun _ _ _ hfold

end TrustVerifier

end Apar
