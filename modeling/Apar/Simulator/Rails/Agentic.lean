/-
The agentic rail (`simulator/rails/agentic.py`): a command carries a signed payment request; the adapter lets the trust
verifier check it, asks the risk scorer for an action, and commits.

A commit goes through three stores in order: the approved value is posted to the ledger, the projected trust state is
written to the engine's entity state, and the verifier appends the record. Every command starts by loading the stored
state into the verifier.

A scorer is a computation with a state of its own that returns an action or raises. Not modelled: checks that a payload
value has exactly a declared Python type where the model has a type for it.
-/
import Apar.Simulator.Engine
import Apar.Trust.Verifier

namespace Apar

open Exec

/-! ## Commands -/

/-- a value of an agentic command payload -/
inductive AgenticValue where
  | none
  | text (s : String)
  | int (n : ℤ)
  | decimal (d : Decimal)
  | time (t : Time)
  | bytes (bs : List UInt8)
  | texts (xs : List String)
  | other

/-- a command as it reaches the adapter: whether its class is `AgenticPaymentCommand`, its name and its payload -/
structure AgenticCommand where
  isPayment : Bool
  name : String
  payload : Dict String AgenticValue

/-- a canonical command -/
structure AgenticPayment where
  request : AgentPaymentRequest
  payerAccount : String
  payeeAccount : String

namespace Agentic

/-- `_request_payload`, with the accounts -/
def payload (p : AgenticPayment) : Dict String AgenticValue :=
  let r := p.request
  let m := r.mandate
  .ofList [
    ("request_id", .text r.requestId), ("payment_id", .text r.paymentId), ("agent_id", .text r.agentId),
    ("key_id", .text r.keyId), ("mandate_id", .text m.mandateId), ("mandate_version", .int m.version),
    ("mandate_agent_id", .text m.agentId), ("user_ref", .text m.userRef), ("user_entity_id", .text m.userEntityId),
    ("beneficiary_entity_id", .text m.beneficiaryEntityId), ("mandate_consent_ref", .text m.consentRef),
    ("mandate_merchant_id", .text m.merchantId), ("mandate_payee_id", .text m.payeeId),
    ("mandate_cart_hash", .text m.cartHash), ("mandate_payment_intent_hash", .text m.paymentIntentHash),
    ("permitted_categories", .texts m.permittedCategories), ("permitted_products", .texts m.permittedProducts),
    ("mandate_credential_id", .text m.credentialId), ("mandate_credential_scope", .text m.credentialScope),
    ("required_authentication", .text m.requiredAuthentication.value), ("max_amount", .decimal m.maxAmount),
    ("mandate_currency", .text m.currency), ("mandate_issued_at", .time m.issuedAt),
    ("mandate_expires_at", .time m.expiresAt), ("amount", .decimal r.amount), ("currency", .text r.currency),
    ("merchant_id", .text r.merchantId), ("payee_id", .text r.payeeId), ("cart_hash", .text r.cartHash),
    ("payment_intent_hash", .text r.paymentIntentHash), ("category", .text r.category),
    ("product_id", .text r.productId), ("credential_id", .text r.credentialId),
    ("credential_scope", .text r.credentialScope), ("consent_ref", .text r.consentRef),
    ("authentication_evidence_ref", r.authenticationEvidenceRef.elim .none .text), ("nonce", .text r.nonce),
    ("created_at", .time r.createdAt), ("expires_at", .time r.expiresAt),
    ("prior_receipt_hash", .text r.priorReceiptHash), ("campaign_id", .text r.campaignId),
    ("trace_id", .text r.traceId), ("actor_id", .text r.actorId), ("counterparty_id", .text r.counterpartyId),
    ("signature", .bytes r.signature), ("payer_account", .text p.payerAccount),
    ("payee_account", .text p.payeeAccount)]

/-- `_PAYLOAD_KEYS` -/
def payloadKeys : List String :=
  ["request_id", "payment_id", "agent_id", "key_id", "mandate_id", "mandate_version", "mandate_agent_id", "user_ref",
    "user_entity_id", "beneficiary_entity_id", "mandate_consent_ref", "mandate_merchant_id", "mandate_payee_id",
    "mandate_cart_hash", "mandate_payment_intent_hash", "permitted_categories", "permitted_products",
    "mandate_credential_id", "mandate_credential_scope", "required_authentication", "max_amount", "mandate_currency",
    "mandate_issued_at", "mandate_expires_at", "amount", "currency", "merchant_id", "payee_id", "cart_hash",
    "payment_intent_hash", "category", "product_id", "credential_id", "credential_scope", "consent_ref",
    "authentication_evidence_ref", "nonce", "created_at", "expires_at", "prior_receipt_hash", "campaign_id",
    "trace_id", "actor_id", "counterparty_id", "signature", "payer_account", "payee_account"]

/-- `value.hex()` -/
def hexText (bs : List UInt8) : String :=
  String.ofList (bs.flatMap fun b => [Uuid.hexChar (b.toNat / 16), Uuid.hexChar (b.toNat % 16)])

/-- the row `_payload_fingerprint` hashes for one field -/
def payloadRow (field : String × AgenticValue) : Except SimError (List String) :=
  match field.2 with
  | .none => .ok [field.1, "none", ""]
  | .text s => .ok [field.1, "str", s]
  | .int n => .ok [field.1, "int", String.ofList (Decimal.intText n)]
  | .decimal d => .ok [field.1, "decimal", d.text]
  | .time t => .ok [field.1, "datetime", Calendar.isoformat t]
  | .bytes bs => .ok [field.1, "bytes", hexText bs]
  | .texts xs => .ok [field.1, "tuple[str]", Json.dumpTexts "," xs]
  | .other => .error (.typeError "agentic command payload contains unsupported value type")

/-- `_payload_fingerprint` -/
def payloadFingerprint [Sha256] (p : Dict String AgenticValue) : Except SimError String := do
  let rows ← (p.items.insertionSort fun a b => a.1 ≤ b.1).mapM payloadRow
  return Sha256.hexdigest (.ofRows rows)

/-- a payload field of the type the constructors demand -/
def field {β : Type} (p : Dict String AgenticValue) (key : String) (read : AgenticValue → Option β) :
    Except SimError β :=
  match p.get? key with
  | none => .error .keyError
  | some value =>
    match read value with
    | some b => .ok b
    | none => .error (.typeError key)

def text (p : Dict String AgenticValue) (key : String) : Except SimError String :=
  field p key fun
    | .text s => some s
    | _ => none

def time (p : Dict String AgenticValue) (key : String) : Except SimError Time :=
  field p key fun
    | .time t => some t
    | _ => none

def decimal (p : Dict String AgenticValue) (key : String) : Except SimError Decimal :=
  field p key fun
    | .decimal d => some d
    | _ => none

def texts (p : Dict String AgenticValue) (key : String) : Except SimError (List String) :=
  field p key fun
    | .texts xs => some xs
    | _ => none

def requirement (p : Dict String AgenticValue) (key : String) : Except SimError AuthenticationRequirement :=
  field p key fun
    | .text "none" => some .none
    | .text "step_up" => some .stepUp
    | _ => none

/-- the mandate fields of `_request_from_payload` -/
def mandateFields (p : Dict String AgenticValue) : Except SimError AgentMandate := do
  return {
    mandateId := ← text p "mandate_id"
    version := ← field p "mandate_version" fun
      | .int n => some n
      | _ => none
    agentId := ← text p "mandate_agent_id"
    userRef := ← text p "user_ref"
    userEntityId := ← text p "user_entity_id"
    beneficiaryEntityId := ← text p "beneficiary_entity_id"
    consentRef := ← text p "mandate_consent_ref"
    merchantId := ← text p "mandate_merchant_id"
    payeeId := ← text p "mandate_payee_id"
    cartHash := ← text p "mandate_cart_hash"
    paymentIntentHash := ← text p "mandate_payment_intent_hash"
    permittedCategories := ← texts p "permitted_categories"
    permittedProducts := ← texts p "permitted_products"
    credentialId := ← text p "mandate_credential_id"
    credentialScope := ← text p "mandate_credential_scope"
    requiredAuthentication := ← requirement p "required_authentication"
    maxAmount := ← decimal p "max_amount"
    currency := ← text p "mandate_currency"
    issuedAt := ← time p "mandate_issued_at"
    expiresAt := ← time p "mandate_expires_at" }

/-- the request fields of `_request_from_payload` -/
def requestFields (p : Dict String AgenticValue) (mandate : AgentMandate) : Except SimError AgentPaymentRequest := do
  return {
    requestId := ← text p "request_id"
    paymentId := ← text p "payment_id"
    agentId := ← text p "agent_id"
    keyId := ← text p "key_id"
    mandate := mandate
    amount := ← decimal p "amount"
    currency := ← text p "currency"
    merchantId := ← text p "merchant_id"
    payeeId := ← text p "payee_id"
    cartHash := ← text p "cart_hash"
    paymentIntentHash := ← text p "payment_intent_hash"
    category := ← text p "category"
    productId := ← text p "product_id"
    credentialId := ← text p "credential_id"
    credentialScope := ← text p "credential_scope"
    consentRef := ← text p "consent_ref"
    authenticationEvidenceRef := ← field p "authentication_evidence_ref" fun
      | .none => some none
      | .text s => some (some s)
      | _ => none
    nonce := ← text p "nonce"
    createdAt := ← time p "created_at"
    expiresAt := ← time p "expires_at"
    priorReceiptHash := ← text p "prior_receipt_hash"
    campaignId := ← text p "campaign_id"
    traceId := ← text p "trace_id"
    actorId := ← text p "actor_id"
    counterpartyId := ← text p "counterparty_id"
    signature := ← field p "signature" fun
      | .bytes bs => some bs
      | _ => none }

/-- `_request_from_payload` -/
def requestFromPayload (ctx : DecimalContext) (p : Dict String AgenticValue) :
    Except SimError AgentPaymentRequest := do
  let mandate ← mandateFields p
  mandate.validate ctx
  let request ← requestFields p mandate
  request.validate ctx
  return request

/-- `AgenticPaymentCommand(request, payer_account=..., payee_account=...)` -/
def paymentCommand (request : AgentPaymentRequest) (payerAccount payeeAccount : String) :
    Except SimError AgenticPayment := do
  checkText "payer_account" payerAccount
  checkText "payee_account" payeeAccount
  check (payerAccount = request.mandate.userRef && payeeAccount = request.payeeId)
    (.valueError "ledger accounts must match signed request binding")
  check (payerAccount ≠ payeeAccount) (.valueError "agentic account roles must be pairwise distinct")
  return ⟨request, payerAccount, payeeAccount⟩

def rebuildCommand [Sha256] (ctx : DecimalContext) (command : AgenticCommand) : Except SimError AgenticPayment := do
  check (command.name = "agentic.pay") (.valueError "command name does not match agentic payment operation")
  check (decide (command.payload.keys.Perm payloadKeys)) (.valueError "agentic command payload fields are invalid")
  let incoming ← payloadFingerprint command.payload
  let request ← requestFromPayload ctx command.payload
  let payerAccount ← text command.payload "payer_account"
  let payeeAccount ← text command.payload "payee_account"
  let canonical ← paymentCommand request payerAccount payeeAccount
  let fingerprint ← payloadFingerprint (payload canonical)
  check (fingerprint = incoming) (.valueError "agentic command payload is not canonical")
  return canonical

/-- `_canonical_command` -/
def canonicalCommand [Sha256] (ctx : DecimalContext) (command : AgenticCommand) : Except SimError AgenticPayment :=
  if command.isPayment then
    match rebuildCommand ctx command with
    | .ok canonical => .ok canonical
    | .error _ => .error (.lifecycle "AGENTIC_COMMAND_INVALID")
  else .error (.lifecycle "AGENTIC_UNKNOWN_COMMAND")

end Agentic

/-! ## The adapter -/

/-- `AgenticDecision` -/
structure AgenticDecision where
  action : Action
  reasonCodes : List ReasonCode
  integrityReceipt : IntegrityReceipt

/-- `RiskScorer`, with the state it keeps for itself -/
abbrev RiskScorer (γ : Type) := AgentPaymentRequest → IntegrityReceipt → EStateM SimError γ Action

/-- what an adapter object holds -/
structure AgenticState (γ : Type) where
  verifier : TrustVerifier
  scorer : γ

abbrev AgenticEngine (γ : Type) := Engine AgenticCommand TrustState (AgenticState γ)

abbrev AgenticM (γ : Type) := EngineM AgenticCommand TrustState (AgenticState γ)

namespace Agentic

variable {γ : Type}

/-- `AGENTIC_TRUST_STATE_ID` -/
def trustStateId : String := "agentic:trust"

def withVerifier {β : Type} (act : VerifierM β) : AgenticM γ β :=
  zoom (fun s => s.adapter.verifier) (fun v s => { s with adapter := { s.adapter with verifier := v } }) act

def withScorer {β : Type} (act : EStateM SimError γ β) : AgenticM γ β :=
  zoom (fun s => s.adapter.scorer) (fun g s => { s with adapter := { s.adapter with scorer := g } }) act

/-- `process` -/
def process [Sha256] [Ed25519] (scorer : RiskScorer γ) (request : AgentPaymentRequest) (now : Time) :
    AgenticM γ AgenticDecision := do
  let preview ← withVerifier (TrustVerifier.preview request now)
  if preview.value.allowed then do
    let action ← onError (withScorer (scorer request preview.value))
      (withVerifier (TrustVerifier.discardPreview preview))
    return ⟨action, [], preview.value⟩
  else return ⟨.decline, preview.value.reasonCode.toList, preview.value⟩

/-- the event kind of a decision -/
def eventKind (decision : AgenticDecision) : EventKind :=
  if decision.action = .approve ∧ decision.integrityReceipt.allowed then .authorization
  else if decision.action = .challenge ∧ decision.integrityReceipt.allowed then .authenticationChallenge
  else .authorizationDeclined

/-- `_event` -/
def event (viewpoint : String) (now : Time) (request : AgentPaymentRequest) (decision : AgenticDecision)
    (eventId : String) : PaymentEvent where
  schemaVersion := "1.0.0"
  eventId := eventId
  campaignId := request.campaignId
  traceId := request.traceId
  rail := .agentic
  viewpoint := viewpoint
  eventType := eventKind decision
  amount := request.amount
  currency := request.currency
  eventTime := now
  ingestedAt := now
  availableAt := now
  decisionAt := some now
  actorId := request.actorId
  counterpartyId := request.counterpartyId
  partyRefs := .ofList [("user_ref", request.mandate.userRef), ("merchant_id", request.merchantId),
    ("payee_id", request.payeeId), ("user_entity_id", request.mandate.userEntityId),
    ("beneficiary_entity_id", request.mandate.beneficiaryEntityId)]
  railData := .ofList [("payment_id", .text request.paymentId), ("request_id", .text request.requestId),
    ("integrity", .text (if decision.integrityReceipt.allowed then "pass" else "fail")),
    ("reason_code", .text ((decision.integrityReceipt.reasonCode.map ReasonCode.value).getD "")),
    ("action", .text decision.action.value), ("receipt_hash", .text decision.integrityReceipt.receiptHash),
    ("receipt_outcome", .text decision.integrityReceipt.outcome.value)]
  lineage := .ofList [("synthetic", .flag true)]
  privacy := .ofList [("classification", "synthetic")]

/-- construct the event of a decision, under a new identifier -/
def newEvent (request : AgentPaymentRequest) (decision : AgenticDecision) : AgenticM γ PaymentEvent := do
  let eventId ← Engine.newUuid
  let s ← get
  let e := event s.viewpoint s.clock.now request decision eventId
  raising e.validate
  return e

/-- the outcome a decided action is committed with -/
def outcomeOf : Action → ReceiptOutcome
  | .approve => .approve
  | .challenge => .challenge
  | .decline => .decline

/-- the ledger entry of an approved payment -/
def paymentEntry (p : AgenticPayment) (eventId : String) : LedgerEntry :=
  ⟨eventId ++ ":agentic-payment", .ofList [(p.payerAccount, p.request.amount)],
    .ofList [(p.payeeAccount, p.request.amount)], p.request.currency⟩

/-- only an approved payment moves value -/
def postValue (ctx : DecimalContext) (p : AgenticPayment) (eventId : String) : Action → AgenticM γ Unit
  | .approve => Engine.post ctx (paymentEntry p eventId)
  | _ => pure ()

/-- post the value of an approved payment, then store the projected trust state -/
def storeCommit (ctx : DecimalContext) (p : AgenticPayment) (action : Action) (eventId : String)
    (projected : TrustState) : AgenticM γ Unit := do
  postValue ctx p eventId action
  Engine.setEntityState trustStateId projected

/-- `handle` after the trust state is loaded -/
def handleLoaded [Sha256] [Ed25519] (scorer : RiskScorer γ) (ctx : DecimalContext) (p : AgenticPayment) :
    AgenticM γ (List PaymentEvent) := do
  let s ← get
  let decision ← process scorer p.request s.clock.now
  if decision.integrityReceipt.allowed then do
    let s ← get
    let prepared ← withVerifier
      (TrustVerifier.prepareCommit p.request decision.integrityReceipt (outcomeOf decision.action) s.clock.now)
    match prepared with
    | .inr rejected => do
      let e ← newEvent p.request ⟨.decline, rejected.reasonCode.toList, rejected⟩
      return [e]
    | .inl plan => do
      let e ← newEvent p.request ⟨decision.action, [], plan.value⟩
      let projected ← withVerifier (TrustVerifier.projectedState plan)
      onError (storeCommit ctx p decision.action e.eventId projected)
        (withVerifier (TrustVerifier.discardCommit plan))
      let _ ← withVerifier (TrustVerifier.applyCommit plan)
      return [e]
  else do
    let e ← newEvent p.request decision
    return [e]

/-- `handle` -/
def handle [Sha256] [Ed25519] (scorer : RiskScorer γ) (ctx : DecimalContext) (command : AgenticCommand) :
    AgenticM γ (List PaymentEvent) := do
  let canonical ← raising (canonicalCommand ctx command)
  let stored ← Engine.entityState? trustStateId
  withVerifier (TrustVerifier.loadState (stored.getD ⟨1, []⟩))
  handleLoaded scorer ctx canonical

/-- `initialize` -/
def init : AgenticM γ Unit := do
  let s ← get
  guard (s.rail = .agentic) (.valueError "agentic adapter requires an agentic scenario")

/-- `AgenticRailAdapter(verifier, scorer)` -/
def adapter [Sha256] [Ed25519] (scorer : RiskScorer γ) (ctx : DecimalContext) :
    RailAdapter AgenticCommand TrustState (AgenticState γ) where
  init := init
  handle := handle scorer ctx

end Agentic

end Apar
