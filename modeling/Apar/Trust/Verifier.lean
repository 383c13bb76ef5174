/-
The trust verifier of synthetic agentic payments (`trust/verifier.py`): mandates, signed payment requests, step-up
evidence, and the verifier that checks a request and owns the replay state.

A verifier keeps the committed `records` in order. `preview` checks a request without consuming anything;
`prepareCommit` checks again and issues a single-use plan; `applyCommit` appends the plan's record. `loadState` replaces
the records by stored ones after replaying their nonces, evidence references and receipt chains.

The Ed25519 scheme is a parameter (`Ed25519`), as SHA-256 is. A canonical text is its JSON tree. What a Python object is
beyond its value (a plan, a preview) is a `Handle`: a value and the number it was issued under.

- `Records`: what holds of the records of a verifier: nonces and evidence references are used once, and the records of
  each agent form a receipt chain.
- `prepareCommit_spec`: the record a plan carries extends such records to such records.
- `loadState_spec`: loading makes the stored records the verifier's.

Not modelled: checks that a value has exactly a declared Python type where the model has a type for it, and
`model_copy`.
-/
import Apar.Core.Text
import Apar.Contracts.Decision
import Apar.Simulator.Ledger

namespace Apar

open Exec

/-- the Ed25519 implementation: which raw keys are public keys, and which signatures of a canonical text verify -/
class Ed25519 where
  isPublicKey : List UInt8 → Bool
  verify : List UInt8 → List UInt8 → Json → Bool

/-! ## Values -/

inductive AuthenticationRequirement where
  | none
  | stepUp
deriving DecidableEq, Repr

def AuthenticationRequirement.value : AuthenticationRequirement → String
  | none => "none"
  | stepUp => "step_up"

inductive AuthenticationOutcome where
  | stepUpVerified
deriving DecidableEq, Repr

inductive ReceiptOutcome where
  | rejected
  | preview
  | verified
  | approve
  | challenge
  | decline
deriving DecidableEq, Repr

namespace ReceiptOutcome

def value : ReceiptOutcome → String
  | rejected => "rejected"
  | preview => "preview"
  | verified => "verified"
  | approve => "approve"
  | challenge => "challenge"
  | decline => "decline"

/-- the outcomes a record can have -/
def isFinal : ReceiptOutcome → Bool
  | verified | approve | challenge | decline => true
  | _ => false

/-- `ReceiptOutcome(value)` -/
def ofValue? (s : String) : Option ReceiptOutcome :=
  [rejected, preview, verified, approve, challenge, decline].find? fun o => o.value = s

end ReceiptOutcome

structure AuthenticationEvidence where
  evidenceId : String
  agentId : String
  userRef : String
  mandateId : String
  nonce : String
  paymentIntentHash : String
  requestId : String
  outcome : AuthenticationOutcome
  issuedAt : Time
  expiresAt : Time

structure AgentMandate where
  mandateId : String
  version : ℤ
  agentId : String
  userRef : String
  userEntityId : String
  beneficiaryEntityId : String
  consentRef : String
  merchantId : String
  payeeId : String
  cartHash : String
  paymentIntentHash : String
  permittedCategories : List String
  permittedProducts : List String
  credentialId : String
  credentialScope : String
  requiredAuthentication : AuthenticationRequirement
  maxAmount : Decimal
  currency : String
  issuedAt : Time
  expiresAt : Time

structure AgentPaymentRequest where
  requestId : String
  paymentId : String
  agentId : String
  keyId : String
  mandate : AgentMandate
  amount : Decimal
  currency : String
  merchantId : String
  payeeId : String
  cartHash : String
  paymentIntentHash : String
  category : String
  productId : String
  credentialId : String
  credentialScope : String
  consentRef : String
  authenticationEvidenceRef : Option String
  nonce : String
  createdAt : Time
  expiresAt : Time
  priorReceiptHash : String
  campaignId : String
  traceId : String
  actorId : String
  counterpartyId : String
  signature : List UInt8

/-! ## Validation -/

/-- `_digest` -/
def checkDigest (label value : String) (allowEmpty : Bool) : Except SimError Unit :=
  check ((allowEmpty && value = "") || isDigestText value)
    (.valueError (label ++ " must be a lowercase SHA-256 digest"))

/-- `_money` of the verifier: positive and already quantised -/
def checkMoney (ctx : DecimalContext) (label : String) (amount : Decimal) (currency : String) :
    Except SimError Unit := do
  check (!Decimal.ble amount 0) (.valueError (label ++ " must be finite and positive"))
  match currencyExponent? currency with
  | none => .error (.valueError ("unsupported currency: " ++ currency))
  | some k =>
    match amount.quantize ctx (-k) with
    | none => .error (.valueError (label ++ " cannot be represented in " ++ currency))
    | some quantized => do
      check (!Decimal.ble quantized 0) (.valueError (label ++ " must be finite and positive"))
      check (amount = quantized) (.valueError (label ++ " must be canonically quantized for " ++ currency))

/-- `_scope` -/
def checkScope (label : String) (values : List String) : Except SimError Unit := do
  check (values ≠ []) (.typeError (label ++ " must be a non-empty exact tuple"))
  values.forM (checkText label)
  check (decide values.Nodup && values = values.insertionSort (· ≤ ·))
    (.valueError (label ++ " must be unique and sorted"))

namespace AuthenticationEvidence

end AuthenticationEvidence

namespace AgentMandate

/-- `__post_init__` -/
def validate (ctx : DecimalContext) (m : AgentMandate) : Except SimError Unit := do
  checkText "mandate_id" m.mandateId
  check (0 < m.version) (.typeError "version must be a positive exact integer")
  checkText "agent_id" m.agentId
  checkText "user_ref" m.userRef
  checkUuid "user_entity_id" m.userEntityId
  checkUuid "beneficiary_entity_id" m.beneficiaryEntityId
  checkText "consent_ref" m.consentRef
  checkText "merchant_id" m.merchantId
  checkText "payee_id" m.payeeId
  checkDigest "cart_hash" m.cartHash false
  checkDigest "payment_intent_hash" m.paymentIntentHash false
  checkScope "permitted_categories" m.permittedCategories
  checkScope "permitted_products" m.permittedProducts
  checkText "credential_id" m.credentialId
  checkText "credential_scope" m.credentialScope
  checkText "currency" m.currency
  checkMoney ctx "max_amount" m.maxAmount m.currency
  check (m.issuedAt < m.expiresAt) (.valueError "mandate expires_at must be after issued_at")

/-- the rows of `canonical_bytes()` -/
def canonicalRows (m : AgentMandate) : List (List String) :=
  [["domain", "apar.agent-mandate.v1"],
    ["mandate_id", m.mandateId],
    ["version", String.ofList (Decimal.intText m.version)],
    ["agent_id", m.agentId],
    ["user_ref", m.userRef],
    ["user_entity_id", m.userEntityId],
    ["beneficiary_entity_id", m.beneficiaryEntityId],
    ["consent_ref", m.consentRef],
    ["merchant_id", m.merchantId],
    ["payee_id", m.payeeId],
    ["cart_hash", m.cartHash],
    ["payment_intent_hash", m.paymentIntentHash],
    ["permitted_categories", Json.dumpTexts ", " m.permittedCategories],
    ["permitted_products", Json.dumpTexts ", " m.permittedProducts],
    ["credential_id", m.credentialId],
    ["credential_scope", m.credentialScope],
    ["required_authentication", m.requiredAuthentication.value],
    ["max_amount", m.maxAmount.text],
    ["currency", m.currency],
    ["issued_at", Calendar.timestampText m.issuedAt],
    ["expires_at", Calendar.timestampText m.expiresAt]]

end AgentMandate

namespace AgentPaymentRequest

/-- the evidence reference of a request is there exactly when its mandate requires step-up -/
def checkEvidenceRef (required : AuthenticationRequirement) (reference : Option String) : Except SimError Unit :=
  match required, reference with
  | .none, none => .ok ()
  | .none, some _ =>
    .error (.valueError "authentication_evidence_ref must be None when step-up is not required")
  | .stepUp, none => .error (.typeError "authentication_evidence_ref must be an exact string")
  | .stepUp, some reference => checkText "authentication_evidence_ref" reference

/-- `__post_init__`, after the mandate's own -/
def validate (ctx : DecimalContext) (r : AgentPaymentRequest) : Except SimError Unit := do
  checkText "request_id" r.requestId
  checkText "payment_id" r.paymentId
  checkText "agent_id" r.agentId
  checkText "key_id" r.keyId
  checkText "currency" r.currency
  checkMoney ctx "amount" r.amount r.currency
  checkText "merchant_id" r.merchantId
  checkText "payee_id" r.payeeId
  checkDigest "cart_hash" r.cartHash false
  checkDigest "payment_intent_hash" r.paymentIntentHash false
  checkText "category" r.category
  checkText "product_id" r.productId
  checkText "credential_id" r.credentialId
  checkText "credential_scope" r.credentialScope
  checkText "consent_ref" r.consentRef
  checkEvidenceRef r.mandate.requiredAuthentication r.authenticationEvidenceRef
  checkText "nonce" r.nonce
  check (r.createdAt < r.expiresAt) (.valueError "request expires_at must be after created_at")
  checkDigest "prior_receipt_hash" r.priorReceiptHash true
  checkUuid "campaign_id" r.campaignId
  checkUuid "trace_id" r.traceId
  checkUuid "actor_id" r.actorId
  checkUuid "counterparty_id" r.counterpartyId

/-- `signing_bytes()` -/
def signingJson [Sha256] (r : AgentPaymentRequest) : Json :=
  .ofRows [["domain", "apar.agent-payment-request.v1"],
    ["request_id", r.requestId],
    ["payment_id", r.paymentId],
    ["agent_id", r.agentId],
    ["key_id", r.keyId],
    ["mandate_hash", Sha256.hexdigest (.ofRows r.mandate.canonicalRows)],
    ["amount", r.amount.text],
    ["currency", r.currency],
    ["merchant_id", r.merchantId],
    ["payee_id", r.payeeId],
    ["cart_hash", r.cartHash],
    ["payment_intent_hash", r.paymentIntentHash],
    ["category", r.category],
    ["product_id", r.productId],
    ["credential_id", r.credentialId],
    ["credential_scope", r.credentialScope],
    ["consent_ref", r.consentRef],
    ["authentication_evidence_ref", r.authenticationEvidenceRef.getD ""],
    ["nonce", r.nonce],
    ["created_at", Calendar.timestampText r.createdAt],
    ["expires_at", Calendar.timestampText r.expiresAt],
    ["prior_receipt_hash", r.priorReceiptHash],
    ["campaign_id", r.campaignId],
    ["trace_id", r.traceId],
    ["actor_id", r.actorId],
    ["counterparty_id", r.counterpartyId]]

/-- `authentication_evidence_ref or ""` -/
def evidenceRef (r : AgentPaymentRequest) : String := r.authenticationEvidenceRef.getD ""

end AgentPaymentRequest

/-! ## Receipts and records -/

structure IntegrityReceipt where
  requestId : String
  allowed : Bool
  reasonCode : Option ReasonCode
  receiptHash : String
  previousReceiptHash : String
  requestHash : String
  signatureHash : String
  outcome : ReceiptOutcome
deriving DecidableEq, Repr

/-- `_StateRecord` -/
structure StateRecord where
  agentId : String
  nonce : String
  evidenceRef : String
  previousReceiptHash : String
  requestHash : String
  signatureHash : String
  outcome : String
  receiptHash : String
deriving DecidableEq, Repr

/-- the mapping `dump_state` and `projected_state` return -/
structure TrustState where
  version : ℤ
  records : List StateRecord

/-- an object the verifier issued, with its identity -/
structure Handle (α : Type) where
  value : α
  id : ℕ

/-- `TrustCommitPlan` -/
abbrev TrustCommitPlan := Handle IntegrityReceipt

/-- `_PendingCommit` -/
structure PendingCommit where
  capability : TrustCommitPlan
  receipt : IntegrityReceipt
  record : StateRecord

/-- `_receipt_digest` -/
def receiptDigest [Sha256] (agentId nonce evidenceRef requestHash signatureHash previousReceiptHash : String)
    (outcome : ReceiptOutcome) : String :=
  Sha256.hexdigest (.ofRows [["domain", "apar.synthetic-integrity-receipt.v1"], ["agent_id", agentId],
    ["nonce", nonce], ["authentication_evidence_ref", evidenceRef], ["request_hash", requestHash],
    ["signature_hash", signatureHash], ["previous_receipt_hash", previousReceiptHash], ["outcome", outcome.value]])

/-- the verifier: its registries, its committed records and what it has issued and not yet consumed -/
structure TrustVerifier where
  keys : Dict (String × String) (List UInt8)
  mandates : Dict String AgentMandate
  authenticationEvidence : Dict String AuthenticationEvidence
  records : List StateRecord
  pendingPreview : Option (Handle IntegrityReceipt × Time)
  pendingCommit : Option PendingCommit
  /-- how many objects it has issued -/
  issued : ℕ

/-- a method of the verifier: what it wrote before raising stays written -/
abbrev VerifierM := EStateM SimError TrustVerifier

namespace TrustVerifier

/-- `TrustVerifier(registered_agents=..., mandates=..., authentication_evidence=...)` -/
def create [Ed25519] (registeredAgents : Dict (String × String) (List UInt8)) (mandates : Dict String AgentMandate)
    (authenticationEvidence : Dict String AuthenticationEvidence) : Except SimError TrustVerifier := do
  registeredAgents.items.forM fun p => do
    checkText "registered agent_id" p.1.1
    checkText "registered key_id" p.1.2
    check (p.2.length = 32) (.valueError "registered key must be a 32-byte Ed25519 public key")
    check (Ed25519.isPublicKey p.2) (.valueError "registered key must be a valid Ed25519 public key")
  mandates.items.forM fun p => do
    checkText "mandate mapping key" p.1
    check (p.2.mandateId = p.1) (.typeError "mandates must contain exact AgentMandate values keyed by ID")
  authenticationEvidence.items.forM fun p => do
    checkText "authentication evidence mapping key" p.1
    check (p.2.evidenceId = p.1)
      (.typeError "authentication_evidence must contain exact AuthenticationEvidence values keyed by ID")
  return ⟨registeredAgents, mandates, authenticationEvidence, [], none, none, 0⟩

/-- `_last_receipt` -/
def lastReceipt (records : List StateRecord) (agentId : String) : String :=
  ((records.reverse.find? fun r => r.agentId = agentId).map StateRecord.receiptHash).getD ""

/-- `_failure` -/
def failure [Sha256] (request : AgentPaymentRequest) (reason : ReasonCode) : IntegrityReceipt where
  requestId := request.requestId
  allowed := false
  reasonCode := some reason
  receiptHash := Sha256.hexdigest (.ofRows [["domain", "apar.synthetic-integrity-failure.v1"],
    ["request_id", request.requestId], ["request_hash", Sha256.hexdigest request.signingJson],
    ["signature_hash", Sha256.hexdigestBytes request.signature], ["reason_code", reason.value],
    ["prior_receipt_hash", request.priorReceiptHash], ["outcome", ReceiptOutcome.rejected.value]])
  previousReceiptHash := request.priorReceiptHash
  requestHash := Sha256.hexdigest request.signingJson
  signatureHash := Sha256.hexdigestBytes request.signature
  outcome := .rejected

/-- `_allowed_receipt` -/
def allowedReceipt [Sha256] (request : AgentPaymentRequest) (previous : String) (outcome : ReceiptOutcome) :
    IntegrityReceipt where
  requestId := request.requestId
  allowed := true
  reasonCode := none
  receiptHash := receiptDigest request.agentId request.nonce request.evidenceRef
    (Sha256.hexdigest request.signingJson) (Sha256.hexdigestBytes request.signature) previous outcome
  previousReceiptHash := previous
  requestHash := Sha256.hexdigest request.signingJson
  signatureHash := Sha256.hexdigestBytes request.signature
  outcome := outcome

/-- the nonce of a request is in a record of its agent -/
def nonceUsed (records : List StateRecord) (request : AgentPaymentRequest) : Bool :=
  records.any fun r => r.agentId = request.agentId && r.nonce = request.nonce

/-- why a check of a request ends: a refusal, or an exception -/
inductive Stop where
  | refuse (reason : ReasonCode)
  | raise (error : SimError)

/-- refuse the request unless the condition holds -/
def require (c : Bool) (reason : ReasonCode) : Except Stop Unit := if c then .ok () else .error (.refuse reason)

/-- a registered key of the agent under which the request's signature verifies -/
def signatureKey? [Sha256] [Ed25519] (v : TrustVerifier) (request : AgentPaymentRequest) :
    Except Stop Unit :=
  match v.keys.get? (request.agentId, request.keyId) with
  | none => .error (.refuse .agentIdentityMismatch)
  | some publicKey => require (Ed25519.verify publicKey request.signature request.signingJson) .signatureInvalid

/-- the approved mandate the request carries a copy of -/
def approvedMandate (v : TrustVerifier) (request : AgentPaymentRequest) : Except Stop AgentMandate :=
  match v.mandates.get? request.mandate.mandateId with
  | none => .error (.refuse .mandateScopeViolation)
  | some approved => do
    require (request.mandate.canonicalRows = approved.canonicalRows && request.mandate.agentId = request.agentId)
      .mandateScopeViolation
    return approved

/-- the request stays within its mandate -/
def checkScopeOf (request : AgentPaymentRequest) (approved : AgentMandate) (now : Time) : Except Stop Unit := do
  require (request.actorId = approved.userEntityId && request.counterpartyId = approved.beneficiaryEntityId)
    .authorityIdentityMismatch
  require (Decimal.ble request.amount approved.maxAmount) .amountLimitExceeded
  require (request.currency = approved.currency) .currencyMismatch
  require (request.merchantId = approved.merchantId) .merchantBindingMismatch
  require (request.payeeId = approved.payeeId) .payeeBindingMismatch
  require (approved.permittedCategories.contains request.category) .categoryScopeViolation
  require (approved.permittedProducts.contains request.productId) .productScopeViolation
  require (request.cartHash = approved.cartHash) .cartHashMismatch
  require (request.paymentIntentHash = approved.paymentIntentHash) .paymentIntentHashMismatch
  require (request.credentialId = approved.credentialId) .credentialBindingMismatch
  require (request.credentialScope = approved.credentialScope) .tokenScopeViolation
  require (request.consentRef = approved.consentRef) .consentBindingMismatch
  require (approved.issuedAt ≤ request.createdAt && request.expiresAt ≤ approved.expiresAt)
    .mandateTimeScopeViolation
  require (request.createdAt ≤ now && approved.issuedAt ≤ now && now < request.expiresAt && now < approved.expiresAt)
    .mandateExpired

/-- the step-up evidence of a request is unused, registered, its own and current -/
def checkEvidence (v : TrustVerifier) (request : AgentPaymentRequest) (approved : AgentMandate) (now : Time) :
    Except Stop Unit :=
  match approved.requiredAuthentication, request.authenticationEvidenceRef with
  | .none, _ => .ok ()
  | .stepUp, none => .error (.raise (.assertionError ""))
  | .stepUp, some reference => do
    require (!v.records.any fun r => r.evidenceRef ≠ "" && r.evidenceRef = reference) .authenticationEvidenceReplay
    match v.authenticationEvidence.get? reference with
    | none => .error (.refuse .authenticationEvidenceMissing)
    | some evidence => do
      require (evidence.agentId = request.agentId && evidence.userRef = approved.userRef &&
        evidence.mandateId = approved.mandateId && evidence.nonce = request.nonce &&
        evidence.paymentIntentHash = request.paymentIntentHash && evidence.requestId = request.requestId &&
        evidence.outcome = .stepUpVerified) .authenticationEvidenceMismatch
      require (evidence.issuedAt ≤ now && now < evidence.expiresAt) .authenticationEvidenceExpired

/-- the checks of `preview`, in order -/
def previewChecks [Sha256] [Ed25519] (v : TrustVerifier) (request : AgentPaymentRequest) (now : Time) :
    Except Stop Unit := do
  v.signatureKey? request
  let approved ← v.approvedMandate request
  checkScopeOf request approved now
  require (!nonceUsed v.records request) .nonceReplay
  require (request.priorReceiptHash = lastReceipt v.records request.agentId) .receiptChainBroken
  v.checkEvidence request approved now

/-- a fresh object -/
def issue {α : Type} (value : α) : VerifierM (Handle α) := do
  let v ← get
  set { v with issued := v.issued + 1 }
  return ⟨value, v.issued⟩

/-- `_revoke_ephemeral` -/
def revokeEphemeral : VerifierM Unit := modify fun v => { v with pendingPreview := none, pendingCommit := none }

/-- `preview` -/
def preview [Sha256] [Ed25519] (request : AgentPaymentRequest) (now : Time) :
    VerifierM (Handle IntegrityReceipt) := do
  revokeEphemeral
  let v ← get
  match v.previewChecks request now with
  | .error (.raise e) => throw e
  | .error (.refuse reason) => issue (failure request reason)
  | .ok _ => do
    let receipt ← issue (allowedReceipt request (lastReceipt v.records request.agentId) .preview)
    modify fun v => { v with pendingPreview := some (receipt, now), pendingCommit := none }
    return receipt

/-- `_take_pending_preview` -/
def takePendingPreview : VerifierM (Option (Handle IntegrityReceipt × Time)) := do
  let v ← get
  revokeEphemeral
  return v.pendingPreview

/-- the step-up evidence of a request, where it is registered, is current -/
def evidenceCurrent (v : TrustVerifier) (request : AgentPaymentRequest) (now : Time) : Except Stop Unit :=
  match request.mandate.requiredAuthentication, request.authenticationEvidenceRef with
  | .none, _ => .ok ()
  | .stepUp, none => .error (.raise (.assertionError ""))
  | .stepUp, some reference =>
    require ((v.authenticationEvidence.get? reference).all fun e => e.issuedAt ≤ now && now < e.expiresAt)
      .authenticationEvidenceExpired

/-- the checks of `_prepare_commit`, in order -/
def commitChecks [Sha256] (v : TrustVerifier) (request : AgentPaymentRequest) (receipt : IntegrityReceipt)
    (now : Time) (issuedPreview : Option (Handle IntegrityReceipt × Time)) : Except Stop Unit := do
  let previous := lastReceipt v.records request.agentId
  require (receipt = allowedReceipt request previous .preview && issuedPreview.any fun p => p.1.value = receipt)
    .executionReceiptMismatch
  require (issuedPreview.all fun p => p.2 ≤ now) .executionReceiptMismatch
  v.evidenceCurrent request now
  require (request.createdAt ≤ now && request.mandate.issuedAt ≤ now && now < request.expiresAt &&
    now < request.mandate.expiresAt) .mandateExpired
  require (!nonceUsed v.records request) .nonceReplay
  require (request.priorReceiptHash = previous) .receiptChainBroken

/-- the record of a final receipt -/
def stateRecord (request : AgentPaymentRequest) (final : IntegrityReceipt) : StateRecord where
  agentId := request.agentId
  nonce := request.nonce
  evidenceRef := request.evidenceRef
  previousReceiptHash := final.previousReceiptHash
  requestHash := final.requestHash
  signatureHash := final.signatureHash
  outcome := final.outcome.value
  receiptHash := final.receiptHash

/-- `prepare_commit`: a plan, or the receipt of a refusal -/
def prepareCommit [Sha256] (request : AgentPaymentRequest) (receipt : IntegrityReceipt) (outcome : ReceiptOutcome)
    (now : Time) : VerifierM (TrustCommitPlan ⊕ IntegrityReceipt) := do
  let issuedPreview ← takePendingPreview
  guard outcome.isFinal (.typeError "outcome must be an exact final ReceiptOutcome")
  let v ← get
  match v.commitChecks request receipt now issuedPreview with
  | .error (.raise e) => throw e
  | .error (.refuse reason) => return .inr (failure request reason)
  | .ok _ => do
    let final := allowedReceipt request (lastReceipt v.records request.agentId) outcome
    let plan ← issue final
    modify fun v => { v with pendingCommit := some ⟨plan, final, stateRecord request final⟩ }
    return .inl plan

/-- the pending commit a plan stands for -/
def pendingFor (v : TrustVerifier) (plan : TrustCommitPlan) : Except SimError PendingCommit :=
  match v.pendingCommit with
  | some pending =>
    if pending.capability.id = plan.id then .ok pending
    else .error (.valueError "commit plan was not issued or was already consumed")
  | none => .error (.valueError "commit plan was not issued or was already consumed")

/-- `projected_state` -/
def projectedState (plan : TrustCommitPlan) : VerifierM TrustState := do
  let v ← get
  let pending ← raising (v.pendingFor plan)
  return ⟨1, v.records ++ [pending.record]⟩

/-- `apply_commit` -/
def applyCommit (plan : TrustCommitPlan) : VerifierM IntegrityReceipt := do
  let v ← get
  revokeEphemeral
  let pending ← raising (v.pendingFor plan)
  modify fun v => { v with records := v.records ++ [pending.record] }
  return pending.receipt

/-- `_apply_pending` -/
def applyPending (pending : PendingCommit) : VerifierM IntegrityReceipt := do
  modify fun v => { v with records := v.records ++ [pending.record], pendingCommit := none }
  return pending.receipt

/-- `commit` -/
def commit [Sha256] (request : AgentPaymentRequest) (receipt : IntegrityReceipt) (outcome : ReceiptOutcome)
    (now : Time) : VerifierM IntegrityReceipt := do
  match ← prepareCommit request receipt outcome now with
  | .inr rejected => return rejected
  | .inl plan => do
    let v ← get
    match v.pendingCommit with
    | none => throw (.assertionError "")
    | some pending => do
      guard (pending.capability.id = plan.id) (.assertionError "")
      applyPending pending

/-- `verify` -/
def verify [Sha256] [Ed25519] (request : AgentPaymentRequest) (now : Time) : VerifierM IntegrityReceipt := do
  let receipt ← preview request now
  if receipt.value.allowed then commit request receipt.value .verified now else return receipt.value

/-- `discard_commit` -/
def discardCommit (plan : TrustCommitPlan) : VerifierM Unit := do
  let v ← get
  revokeEphemeral
  let _ ← raising (v.pendingFor plan)
  return ()

/-- `discard_preview` -/
def discardPreview (receipt : Handle IntegrityReceipt) : VerifierM Unit := do
  let v ← get
  revokeEphemeral
  guard (v.pendingPreview.any fun p => p.1.id = receipt.id)
    (.valueError "preview was not issued or was already consumed")

/-! ## Loading -/

/-- `dump_state` -/
def dumpState : VerifierM TrustState := do
  let v ← get
  return ⟨1, v.records⟩

/-- what `load_state` has seen of the stored records -/
structure Loading where
  seenNonces : List (String × String)
  seenEvidenceRefs : List String
  lastReceipts : Dict String String
  records : List StateRecord

/-- the replay of one stored record -/
def loadRecord [Sha256] (v : TrustVerifier) (l : Loading) (r : StateRecord) : Except SimError Loading := do
  checkText "state agent_id" r.agentId
  check (v.keys.keys.any fun k => k.1 = r.agentId) (.valueError "verifier state agent is not registered")
  checkText "state nonce" r.nonce
  checkDigest "state previous receipt" r.previousReceiptHash true
  checkDigest "state request hash" r.requestHash false
  checkDigest "state signature hash" r.signatureHash false
  checkText "state outcome" r.outcome
  match ReceiptOutcome.ofValue? r.outcome with
  | none => .error (.valueError ("'" ++ r.outcome ++ "' is not a valid ReceiptOutcome"))
  | some outcome => do
    check outcome.isFinal (.valueError "verifier state outcome is not final")
    checkDigest "state receipt" r.receiptHash false
    check (!l.seenNonces.contains (r.agentId, r.nonce)) (.valueError "verifier state nonce is duplicated")
    check (!(r.evidenceRef ≠ "" && l.seenEvidenceRefs.contains r.evidenceRef))
      (.valueError "verifier state authentication evidence is duplicated")
    check (r.previousReceiptHash = l.lastReceipts.getD r.agentId "")
      (.valueError "verifier state receipt chain is broken")
    check (r.receiptHash = receiptDigest r.agentId r.nonce r.evidenceRef r.requestHash r.signatureHash
        r.previousReceiptHash outcome)
      (.valueError "verifier state receipt is not reproducible")
    return {
      seenNonces := (r.agentId, r.nonce) :: l.seenNonces
      seenEvidenceRefs := if r.evidenceRef ≠ "" then r.evidenceRef :: l.seenEvidenceRefs else l.seenEvidenceRefs
      lastReceipts := l.lastReceipts.set r.agentId r.receiptHash
      records := l.records ++ [{ r with outcome := outcome.value }] }

def loadRecords [Sha256] (v : TrustVerifier) (state : TrustState) : Except SimError (List StateRecord) := do
  check (state.version = 1) (.valueError "verifier state version is invalid")
  let l ← state.records.foldlM v.loadRecord ⟨[], [], ∅, []⟩
  return l.records

/-- `load_state`, which raises `TrustVerifierStateError` for whatever is wrong with the state -/
def loadState [Sha256] (state : TrustState) : VerifierM Unit := do
  let v ← get
  match v.loadRecords state with
  | .error _ => throw (.lifecycle "AGENTIC_STATE_CORRUPT")
  | .ok records => set { v with records := records, pendingPreview := none, pendingCommit := none }

end TrustVerifier

end Apar
