/-
The payment lifecycle adapters (`simulator/rails/card.py`, `simulator/rails/a2a.py`). The two modules are one program
with different tables: the states, the operations with their transitions and error codes, the account roles and the
ledger legs of each effect. `Lifecycle` is such a table; `Card.lean` and `A2A.lean` give the two instances.

A command opens a payment or moves it one transition on. `handle` canonicalises the command, loads and revalidates the
payment's stored state (replaying its whole record history), answers an exact retry with nothing, and otherwise takes
one transition: a fresh event id, a new history record, the effect's ledger entry, the new stored state, one event.

- `handle_spec`: a successful `handle` is a retry that changes nothing, or one transition of one payment.

A stored state is a typed record, so the checks that a mapping has exactly the expected keys and value types are not
modelled (nothing but the adapter writes entity states). Non-finite decimals are the payload value `other`, which every
reader refuses.
-/
import Apar.Simulator.Engine

namespace Apar

open Exec

/-! ## Tables -/

/-- the amount of a ledger leg -/
inductive LegAmount where
  | amount
  | fee
  | amountLessFee
  | amountPlusFee
deriving DecidableEq, Repr

/-- the entry of a ledger effect: the suffix of its id and its legs by account role -/
structure Posting (R : Type) where
  suffix : String
  debit : List (R × LegAmount)
  credit : List (R × LegAmount)

/-- the tables of one lifecycle adapter: states `S`, operations `O`, account roles `R` -/
structure Lifecycle (S O R : Type) where
  rail : Rail
  /-- the first part of every `LifecycleError` code -/
  codes : String
  /-- how the adapter's messages name the rail -/
  noun : String
  scenarioMessage : String
  beginMessage : String
  repeatMessage : String
  historyDomain : String
  created : S
  stateValue : S → String
  operations : List O
  operationName : O → String
  isOpening : O → Bool
  roles : List R
  roleKey : R → String
  feeWithinAmount : Bool
  /-- `_TRANSITIONS`; the last part is the effect's posting, `none` for the effect `"none"` -/
  transition : S → O → Option (S × EventKind × Option (Posting R))
  missingCode : O → String
  invalidCode : S → O → String

/-- a value of a command payload -/
inductive PayloadValue where
  | text (s : String)
  | decimal (d : Decimal)
  | other

/-- a command as it reaches the adapter: its class (`none` for a class the adapter does not know), its name and its
payload, none of them trusted -/
structure Command (O : Type) where
  commandType : Option O
  name : String
  payload : Dict String PayloadValue

/-- what an opening command says about the payment -/
structure Opening (R : Type) where
  amount : Decimal
  currency : String
  accounts : R → String
  actorId : String
  counterpartyId : String
  campaignId : String
  traceId : String
  fee : Decimal

/-- a canonical command; a follow-up carries no opening data -/
structure Request (O R : Type) where
  operation : O
  paymentId : String
  idempotencyKey : String
  opening : Option (Opening R)

/-- one entry of `idempotency_records` -/
structure HistoryRecord where
  key : String
  operation : String
  fingerprint : String
  eventId : String
  commitment : String
deriving DecidableEq

/-- the stored entity state of a payment -/
structure PaymentState (S R : Type) where
  state : S
  paymentId : String
  opening : Opening R
  lastEventId : String
  historyCommitment : String
  records : List HistoryRecord

/-! ## Commands -/

/-- `_money` -/
def money (ctx : DecimalContext) (label : String) (amount : Decimal) (currency : String) (positive : Bool) :
    Except SimError Decimal := do
  let qualifier := if positive then "positive" else "non-negative"
  check (if positive then !Decimal.ble amount 0 else Decimal.ble 0 amount)
    (.valueError (label ++ " must be finite and " ++ qualifier))
  match currencyExponent? currency with
  | none => .error (.valueError ("unsupported currency: " ++ currency))
  | some k =>
    match amount.quantize ctx (-k) with
    | none => .error (.valueError (label ++ " cannot be represented in " ++ currency))
    | some quantized => do
      check (!positive || !Decimal.ble quantized 0) (.valueError (label ++ " must be finite and positive"))
      return quantized

/-- the rows `_payload_fingerprint` hashes -/
def payloadRows (noun : String) : List (String × PayloadValue) → Except SimError (List (List String))
  | [] => .ok []
  | (key, value) :: rest => do
    let row ← match value with
      | .text s => .ok [key, "str", s]
      | .decimal d => .ok [key, "decimal", d.text]
      | .other => .error (.typeError (noun ++ " command payload contains unsupported value type"))
    let rows ← payloadRows noun rest
    return row :: rows

/-- `_history_event_position`: the prefix and the sequence number of a canonical version-4 UUID -/
def historyEventPosition (eventId : String) : Except SimError (ℕ × ℕ) := do
  checkText "history event_id" eventId
  match Uuid.parseUuid eventId with
  | none => .error (.valueError "history event_id must be a UUID string")
  | some n =>
    if Uuid.formatUuid n = eventId ∧ Uuid.version n = some 4 then .ok (n / 2 ^ 48, n % 2 ^ 48)
    else .error (.valueError "history event_id must be a canonical version-4 UUID")

namespace Lifecycle

variable {S O R : Type}

/-- `_payload_fingerprint` -/
def payloadFingerprint [Sha256] (L : Lifecycle S O R) (payload : Dict String PayloadValue) :
    Except SimError String := do
  let rows ← payloadRows L.noun (payload.items.insertionSort fun p q => p.1 ≤ q.1)
  return Sha256.hexdigest (.ofRows rows)

/-- every account role names a non-empty account, and no two the same -/
def checkAccounts (L : Lifecycle S O R) (accounts : R → String) : Except SimError Unit := do
  L.roles.forM fun r => checkText (L.roleKey r) (accounts r)
  check (decide (L.roles.map accounts).Nodup)
    (.valueError (L.noun ++ " account roles must be pairwise distinct"))

/-- the constructor of an opening command -/
def openingRequest (L : Lifecycle S O R) (ctx : DecimalContext) (operation : O) (paymentId idempotencyKey : String)
    (o : Opening R) : Except SimError (Request O R) := do
  checkText "currency" o.currency
  let amount ← money ctx "amount" o.amount o.currency true
  let fee ← money ctx "fee" o.fee o.currency false
  check (!L.feeWithinAmount || Decimal.ble fee amount) (.valueError "fee must not exceed amount")
  checkText "payment_id" paymentId
  L.checkAccounts o.accounts
  checkUuid "actor_id" o.actorId
  checkUuid "counterparty_id" o.counterpartyId
  checkUuid "campaign_id" o.campaignId
  checkUuid "trace_id" o.traceId
  checkText "idempotency_key" idempotencyKey
  return ⟨operation, paymentId, idempotencyKey, some { o with amount := amount, fee := fee }⟩

/-- the constructor of a follow-up command -/
def followupRequest (operation : O) (paymentId idempotencyKey : String) : Except SimError (Request O R) := do
  checkText "payment_id" paymentId
  checkText "idempotency_key" idempotencyKey
  return ⟨operation, paymentId, idempotencyKey, none⟩

/-- the payload a constructed command carries -/
def requestPayload (L : Lifecycle S O R) (r : Request O R) : Dict String PayloadValue :=
  match r.opening with
  | none => .ofList [("payment_id", .text r.paymentId), ("idempotency_key", .text r.idempotencyKey)]
  | some o => .ofList (
      [("payment_id", .text r.paymentId), ("amount", .decimal o.amount), ("currency", .text o.currency)] ++
      L.roles.map (fun role => (L.roleKey role, .text (o.accounts role))) ++
      [("actor_id", .text o.actorId), ("counterparty_id", .text o.counterpartyId),
        ("campaign_id", .text o.campaignId), ("trace_id", .text o.traceId), ("fee", .decimal o.fee),
        ("idempotency_key", .text r.idempotencyKey)])

/-- `_OPEN_PAYLOAD_KEYS`, `_FOLLOWUP_PAYLOAD_KEYS` -/
def expectedKeys (L : Lifecycle S O R) (operation : O) : List String :=
  if L.isOpening operation then
    ["payment_id", "amount", "currency"] ++ L.roles.map L.roleKey ++
      ["actor_id", "counterparty_id", "campaign_id", "trace_id", "fee", "idempotency_key"]
  else ["payment_id", "idempotency_key"]

def payloadText (payload : Dict String PayloadValue) (key : String) : Except SimError String :=
  match payload.get? key with
  | some (.text s) => .ok s
  | some _ => .error (.typeError (key ++ " must be an exact string"))
  | none => .error .keyError

def payloadDecimal (payload : Dict String PayloadValue) (key : String) : Except SimError Decimal :=
  match payload.get? key with
  | some (.decimal d) => .ok d
  | some _ => .error (.typeError (key ++ " must be an exact Decimal"))
  | none => .error .keyError

/-- the opening data of an untrusted payload; an account the payload does not hold as a text is refused -/
def payloadOpening (L : Lifecycle S O R) (payload : Dict String PayloadValue) : Except SimError (Opening R) := do
  L.roles.forM fun r => do let _ ← payloadText payload (L.roleKey r)
  return {
    amount := ← payloadDecimal payload "amount"
    currency := ← payloadText payload "currency"
    accounts := fun r => match payload.get? (L.roleKey r) with
      | some (.text s) => s
      | _ => ""
    actorId := ← payloadText payload "actor_id"
    counterpartyId := ← payloadText payload "counterparty_id"
    campaignId := ← payloadText payload "campaign_id"
    traceId := ← payloadText payload "trace_id"
    fee := ← payloadDecimal payload "fee" }

/-- the canonical command an untrusted one stands for, or what constructing it raises -/
def rebuildCommand [Sha256] (L : Lifecycle S O R) (ctx : DecimalContext) (operation : O) (command : Command O) :
    Except SimError (Request O R) := do
  check (command.name = L.operationName operation)
    (.valueError "command name does not match concrete operation")
  check (decide (command.payload.keys.Perm (L.expectedKeys operation)))
    (.valueError "command payload fields do not match concrete operation")
  let incoming ← L.payloadFingerprint command.payload
  let paymentId ← payloadText command.payload "payment_id"
  let idempotencyKey ← payloadText command.payload "idempotency_key"
  let canonical ←
    if L.isOpening operation then do
      let o ← L.payloadOpening command.payload
      L.openingRequest ctx operation paymentId idempotencyKey o
    else followupRequest operation paymentId idempotencyKey
  let fingerprint ← L.payloadFingerprint (L.requestPayload canonical)
  check (fingerprint = incoming) (.valueError "command payload is not canonical")
  return canonical

/-- `_canonical_command` -/
def canonicalCommand [Sha256] (L : Lifecycle S O R) (ctx : DecimalContext) (command : Command O) :
    Except SimError (Request O R) :=
  match command.commandType with
  | none => .error (.lifecycle (L.codes ++ "_UNKNOWN_COMMAND"))
  | some operation =>
    match L.rebuildCommand ctx operation command with
    | .ok canonical => .ok canonical
    | .error _ => .error (.lifecycle (L.codes ++ "_COMMAND_INVALID"))

/-! ## Stored states -/

/-- `_record_commitment` -/
def recordCommitment [Sha256] (L : Lifecycle S O R)
    (previousCommitment paymentId operation idempotencyKey requestFingerprint eventId : String) : String :=
  Sha256.hexdigest (.ofRows [["domain", L.historyDomain], ["previous_commitment", previousCommitment],
    ["payment_id", paymentId], ["operation", operation], ["idempotency_key", idempotencyKey],
    ["request_fingerprint", requestFingerprint], ["event_id", eventId]])

/-- `_command_from_record` -/
def commandFromRecord (L : Lifecycle S O R) (ctx : DecimalContext) (operation : O) (idempotencyKey : String)
    (state : PaymentState S R) : Except SimError (Request O R) :=
  if L.isOpening operation then L.openingRequest ctx operation state.paymentId idempotencyKey state.opening
  else followupRequest operation state.paymentId idempotencyKey

/-- how far the replay of a record history has come -/
structure Replay (S : Type) where
  seenKeys : List String
  seenEventIds : List String
  eventPrefix : Option ℕ
  previousSequence : ℤ
  state : S
  commitment : String
  started : Bool

/-- the replay of one history record -/
def replayRecord [Sha256] (L : Lifecycle S O R) (ctx : DecimalContext) (state : PaymentState S R) (p : Replay S)
    (record : HistoryRecord) : Except SimError (Replay S) := do
  check (record.key ≠ "") (.valueError "idempotency record key must be a non-empty string")
  match L.operations.find? fun o => L.operationName o = record.operation with
  | none => .error (.valueError "idempotency record operation is invalid")
  | some operation => do
    check (isDigestText record.fingerprint)
      (.valueError "idempotency record fingerprint must be a lowercase SHA-256 digest")
    check (isDigestText record.commitment)
      (.valueError "idempotency record commitment must be a lowercase SHA-256 digest")
    check (!p.seenKeys.contains record.key) (.valueError "idempotency record keys must be unique")
    let position ← historyEventPosition record.eventId
    check (!p.seenEventIds.contains record.eventId) (.valueError "idempotency record event IDs must be unique")
    check (p.eventPrefix.all fun q => q = position.1)
      (.valueError "idempotency record event IDs must share an engine prefix")
    check (decide (p.previousSequence < position.2)) (.valueError "idempotency record event IDs must increase")
    let command ← L.commandFromRecord ctx operation record.key state
    let fingerprint ← L.payloadFingerprint (L.requestPayload command)
    check (fingerprint = record.fingerprint)
      (.valueError "idempotency record fingerprint does not match request")
    check (record.commitment = L.recordCommitment p.commitment state.paymentId record.operation record.key
        record.fingerprint record.eventId)
      (.valueError "idempotency record commitment does not match history")
    check (p.started || L.isOpening operation) (.valueError L.beginMessage)
    check (!p.started || !L.isOpening operation) (.valueError L.repeatMessage)
    match L.transition p.state operation with
    | none => .error (.valueError (L.noun ++ " history contains an illegal transition"))
    | some (next, _, _) =>
      return {
        seenKeys := record.key :: p.seenKeys
        seenEventIds := record.eventId :: p.seenEventIds
        eventPrefix := some position.1
        previousSequence := position.2
        state := next
        commitment := record.commitment
        started := true }

def replayRecords [Sha256] (L : Lifecycle S O R) (ctx : DecimalContext) (state : PaymentState S R) :
    Replay S → List HistoryRecord → Except SimError (Replay S)
  | p, [] => .ok p
  | p, record :: rest => do
    let p' ← L.replayRecord ctx state p record
    L.replayRecords ctx state p' rest

/-- every check `_validated_state` makes -/
def checkState [Sha256] [DecidableEq S] (L : Lifecycle S O R) (ctx : DecimalContext) (state : PaymentState S R)
    (expectedPaymentId : String) : Except SimError Unit := do
  let o := state.opening
  checkText "payment_id" state.paymentId
  check (state.paymentId = expectedPaymentId) (.valueError "state payment_id does not match entity key")
  checkText "currency" o.currency
  let amount ← money ctx "amount" o.amount o.currency true
  check (o.amount = amount) (.valueError "state amount must be canonically quantized")
  let fee ← money ctx "fee" o.fee o.currency false
  check (o.fee = fee) (.valueError "state fee must be canonically quantized")
  check (!L.feeWithinAmount || Decimal.ble o.fee o.amount) (.valueError "state fee must not exceed amount")
  L.checkAccounts o.accounts
  checkUuid "actor_id" o.actorId
  checkUuid "counterparty_id" o.counterpartyId
  checkUuid "campaign_id" o.campaignId
  checkUuid "trace_id" o.traceId
  check (state.lastEventId = "" || validUuid state.lastEventId)
    (.valueError "last_event_id must be a UUID string")
  check (state.historyCommitment = "" || isDigestText state.historyCommitment)
    (.valueError "history_commitment must be a lowercase SHA-256 digest")
  let replayed ← L.replayRecords ctx state ⟨[], [], none, -1, L.created, "", false⟩ state.records
  match state.records.getLast? with
  | some final => do
    check (state.lastEventId = final.eventId)
      (.valueError ("last_event_id does not match final " ++ L.noun ++ " history record"))
    check (state.historyCommitment = replayed.commitment)
      (.valueError ("history_commitment does not match final " ++ L.noun ++ " record"))
  | none =>
    check (state.lastEventId = "" && state.historyCommitment = "")
      (.valueError ("terminal history fields do not match empty " ++ L.noun ++ " history"))
  check (replayed.state = state.state)
    (.valueError ("stored " ++ L.noun ++ " state does not match replayed history"))

/-- `_validated_state` -/
def validatedState [Sha256] [DecidableEq S] (L : Lifecycle S O R) (ctx : DecimalContext) (state : PaymentState S R)
    (expectedPaymentId : String) : Except SimError Unit :=
  match L.checkState ctx state expectedPaymentId with
  | .ok _ => .ok ()
  | .error _ => .error (.lifecycle (L.codes ++ "_STATE_CORRUPT"))

/-- `_opening_state` -/
def openingState (L : Lifecycle S O R) (paymentId : String) (o : Opening R) : PaymentState S R where
  state := L.created
  paymentId := paymentId
  opening := o
  lastEventId := ""
  historyCommitment := ""
  records := []

/-! ## Handling a command -/

/-- `_is_idempotent_retry` -/
def isIdempotentRetry [Sha256] (L : Lifecycle S O R) (state : PaymentState S R) (canonical : Request O R) :
    Except SimError Bool := do
  let fingerprint ← L.payloadFingerprint (L.requestPayload canonical)
  match state.records.find? fun record => record.key = canonical.idempotencyKey with
  | none => return false
  | some record =>
    if record.operation = L.operationName canonical.operation ∧ record.fingerprint = fingerprint then return true
    else .error (.lifecycle (L.codes ++ "_IDEMPOTENCY_KEY_COLLISION"))

/-- `_TRANSITIONS[(current, type(command))]` -/
def nextTransition (L : Lifecycle S O R) (current : S) (operation : O) :
    Except SimError (S × EventKind × Option (Posting R)) :=
  match L.transition current operation with
  | some t => .ok t
  | none => .error (.lifecycle (L.invalidCode current operation))

end Lifecycle

/-- the decimal a leg posts -/
def LegAmount.eval {R : Type} (ctx : DecimalContext) (o : Opening R) : LegAmount → Decimal
  | amount => o.amount
  | fee => o.fee
  | amountLessFee => o.amount.sub ctx o.fee
  | amountPlusFee => o.amount.add ctx o.fee

namespace Lifecycle

variable {S O R : Type}

/-- the legs of a posting on the accounts of a payment -/
def legs (ctx : DecimalContext) (o : Opening R) (l : List (R × LegAmount)) : Dict String Decimal :=
  .ofList (l.map fun p => (o.accounts p.1, p.2.eval ctx o))

/-- the ledger entry of an effect -/
def effectEntry (ctx : DecimalContext) (o : Opening R) (posting : Posting R) (eventId : String) : LedgerEntry where
  entryId := eventId ++ ":" ++ posting.suffix
  debit := legs ctx o posting.debit
  credit := legs ctx o posting.credit
  currency := o.currency

/-- `_post_effect` -/
def postEffect (ctx : DecimalContext) (state : PaymentState S R) (effect : Option (Posting R)) (eventId : String) :
    EngineM (Command O) (PaymentState S R) Unit Unit :=
  match effect with
  | none => pure ()
  | some posting => Engine.post ctx (effectEntry ctx state.opening posting eventId)

/-- `_event` -/
def event (L : Lifecycle S O R) (viewpoint : String) (now : Time) (state : PaymentState S R) (kind : EventKind)
    (eventId previousEventId : String) : PaymentEvent where
  schemaVersion := "1.0.0"
  eventId := eventId
  campaignId := state.opening.campaignId
  traceId := state.opening.traceId
  rail := L.rail
  viewpoint := viewpoint
  eventType := kind
  amount := state.opening.amount
  currency := state.opening.currency
  eventTime := now
  ingestedAt := now
  availableAt := now
  decisionAt := some now
  actorId := state.opening.actorId
  counterpartyId := state.opening.counterpartyId
  partyRefs := ∅
  railData := .ofList [("payment_id", .text state.paymentId), ("lifecycle_state", .text (L.stateValue state.state))]
  lineage := .ofList (("synthetic", .flag true) ::
    if previousEventId = "" then [] else [("previous_event_id", .text previousEventId)])
  privacy := .ofList [("classification", "synthetic")]

/-- the stored state of the payment a command is for, or the opening state -/
def loadState (L : Lifecycle S O R) (canonical : Request O R) (stored : Option (PaymentState S R)) :
    Except SimError (PaymentState S R) :=
  match stored, canonical.opening with
  | some state, _ => .ok state
  | none, some o => .ok (L.openingState canonical.paymentId o)
  | none, none => .error (.lifecycle (L.missingCode canonical.operation))

/-- the stored state after a transition -/
def advance [Sha256] (L : Lifecycle S O R) (state : PaymentState S R) (canonical : Request O R) (next : S)
    (eventId requestFingerprint : String) : PaymentState S R :=
  let operation := L.operationName canonical.operation
  let commitment := L.recordCommitment state.historyCommitment canonical.paymentId operation
    canonical.idempotencyKey requestFingerprint eventId
  { state with
    state := next
    lastEventId := eventId
    historyCommitment := commitment
    records := state.records ++
      [⟨canonical.idempotencyKey, operation, requestFingerprint, eventId, commitment⟩] }

/-- take one transition: event id, history record, event, ledger entry, stored state -/
def transact [Sha256] [DecidableEq S] (L : Lifecycle S O R) (ctx : DecimalContext) (canonical : Request O R)
    (state : PaymentState S R) : EngineM (Command O) (PaymentState S R) Unit (List PaymentEvent) := do
  let (next, kind, effect) ← raising (L.nextTransition state.state canonical.operation)
  let eventId ← Engine.newUuid
  let requestFingerprint ← raising (L.payloadFingerprint (L.requestPayload canonical))
  let updated := L.advance state canonical next eventId requestFingerprint
  raising (L.validatedState ctx updated canonical.paymentId)
  let s ← get
  let prospective := L.event s.viewpoint s.clock.now updated kind eventId state.lastEventId
  raising prospective.validate
  postEffect ctx updated effect eventId
  Engine.setEntityState canonical.paymentId updated
  return [prospective]

/-- `handle(command, context)` -/
def handle [Sha256] [DecidableEq S] (L : Lifecycle S O R) (ctx : DecimalContext) (command : Command O) :
    EngineM (Command O) (PaymentState S R) Unit (List PaymentEvent) := do
  let canonical ← raising (L.canonicalCommand ctx command)
  let stored ← Engine.entityState? canonical.paymentId
  let state ← raising (L.loadState canonical stored)
  raising (L.validatedState ctx state canonical.paymentId)
  let isRetry ← raising (L.isIdempotentRetry state canonical)
  if isRetry then return [] else L.transact ctx canonical state

/-- `initialize(context)` -/
def init (L : Lifecycle S O R) : EngineM (Command O) (PaymentState S R) Unit Unit := do
  let s ← get
  guard (s.rail = L.rail) (.valueError L.scenarioMessage)

def adapter [Sha256] [DecidableEq S] (L : Lifecycle S O R) (ctx : DecimalContext) :
    RailAdapter (Command O) (PaymentState S R) Unit where
  init := L.init
  handle := L.handle ctx

/-! ## What a command does -/

/-- the checked part of a payment that its ledger entries depend on -/
structure Canonical (L : Lifecycle S O R) (ctx : DecimalContext) (o : Opening R) : Prop where
  amount : money ctx "amount" o.amount o.currency true = .ok o.amount
  fee : money ctx "fee" o.fee o.currency false = .ok o.fee
  feeWithin : L.feeWithinAmount = true → o.fee.value ≤ o.amount.value
  accounts : (L.roles.map o.accounts).Nodup

variable {ctx : DecimalContext} {L : Lifecycle S O R} {state : PaymentState S R} {emitted : List PaymentEvent}

theorem money_eq_ok {label currency : String} {amount q : Decimal} {positive : Bool}
    (h : money ctx label amount currency positive = .ok q) :
    ∃ k : ℕ, currencyExponent? currency = some k ∧ amount.quantize ctx (-k) = some q ∧ 0 ≤ amount.value ∧
      (positive = true → 0 < q.value) := by
  simp only [money, except_bind_eq_ok, check_eq_ok] at h
  obtain ⟨_, hsign, h⟩ := h
  cases hk : currencyExponent? currency with
  | none => simp [hk] at h
  | some k =>
    simp only [hk] at h
    cases hq : amount.quantize ctx (-k) with
    | none => simp [hq] at h
    | some q' =>
      simp only [hq, except_bind_eq_ok, check_eq_ok, except_pure_eq_ok] at h
      obtain ⟨_, hpos, rfl⟩ := h
      refine ⟨k, rfl, hq, ?_, ?_⟩
      · cases positive with
        | true =>
          have : ¬ amount.value ≤ 0 := by
            rw [← Decimal.value_zero, ← Decimal.ble_iff]
            simpa using hsign
          exact (not_le.1 this).le
        | false => simpa [Decimal.ble_iff] using hsign
      · rintro rfl
        have : ¬ q'.value ≤ 0 := by
          rw [← Decimal.value_zero, ← Decimal.ble_iff]
          simpa using hpos
        exact not_le.1 this

theorem validatedState_spec [Sha256] [DecidableEq S] {paymentId : String} {u : Unit}
    (h : L.validatedState ctx state paymentId = .ok u) :
    L.Canonical ctx state.opening ∧ state.paymentId = paymentId ∧ paymentId ≠ "" := by
  unfold validatedState at h
  cases hcheck : L.checkState ctx state paymentId with
  | error e => simp [hcheck] at h
  | ok _ =>
    simp only [checkState, except_bind_eq_ok, check_eq_ok, checkText, checkAccounts, decide_eq_true_eq] at hcheck
    obtain ⟨_, hne, _, hid, _, _, amount, hamount, _, hamount', fee, hfee, hcheck⟩ := hcheck
    obtain ⟨_, hfee', _, hwithin, _, ⟨_, _, haccounts⟩, -⟩ := hcheck
    refine ⟨⟨?_, ?_, ?_, haccounts⟩, hid, hid ▸ hne⟩
    · exact hamount.trans (congrArg Except.ok hamount'.symm)
    · exact hfee.trans (congrArg Except.ok hfee'.symm)
    · intro hL
      simpa [hL, Decimal.ble_iff] using hwithin

/-- the ledger after an effect is posted -/
def Posts (ctx : DecimalContext) (o : Opening R) (eventId : String) (before after : Ledger) :
    Option (Posting R) → Prop
  | none => after = before
  | some posting => before.post ctx (effectEntry ctx o posting eventId) = .ok after

/-- one transition of a payment: what a command that is not a retry does -/
structure Transition [Sha256] [DecidableEq S] (L : Lifecycle S O R) (ctx : DecimalContext)
    (s s' : Engine (Command O) (PaymentState S R) Unit) (emitted : List PaymentEvent) where
  canonical : Request O R
  state : PaymentState S R
  next : S
  kind : EventKind
  effect : Option (Posting R)
  fingerprint : String
  ledger : Ledger
  loaded : L.loadState canonical (s.entityState.get? canonical.paymentId) = .ok state
  valid : L.validatedState ctx state canonical.paymentId = .ok ()
  legal : L.transition state.state canonical.operation = some (next, kind, effect)
  sequence : s.uuidSequence < 2 ^ 48
  posted : Posts ctx state.opening (Engine.uuidAt s.uuidPrefix s.uuidSequence) s.ledger ledger effect
  emits : emitted = [L.event s.viewpoint s.clock.now
    (L.advance state canonical next (Engine.uuidAt s.uuidPrefix s.uuidSequence) fingerprint) kind
    (Engine.uuidAt s.uuidPrefix s.uuidSequence) state.lastEventId]
  after : s' = { s with
    uuidSequence := s.uuidSequence + 1
    ledger := ledger
    entityState := s.entityState.set canonical.paymentId
      (L.advance state canonical next (Engine.uuidAt s.uuidPrefix s.uuidSequence) fingerprint) }

namespace Transition

variable [Sha256] [DecidableEq S] {L : Lifecycle S O R} {ctx : DecimalContext}
  {s s' : Engine (Command O) (PaymentState S R) Unit} {emitted : List PaymentEvent}

def eventId (_ : Transition L ctx s s' emitted) : String := Engine.uuidAt s.uuidPrefix s.uuidSequence

/-- the stored state after the transition -/
def updated (t : Transition L ctx s s' emitted) : PaymentState S R :=
  L.advance t.state t.canonical t.next t.eventId t.fingerprint

/-- the event the transition emits -/
def event (t : Transition L ctx s s' emitted) : PaymentEvent :=
  L.event s.viewpoint s.clock.now t.updated t.kind t.eventId t.state.lastEventId

end Transition

theorem nextTransition_eq_ok {current : S} {operation : O} {t : S × EventKind × Option (Posting R)} :
    L.nextTransition current operation = .ok t ↔ L.transition current operation = some t := by
  unfold nextTransition
  cases L.transition current operation with
  | none => simp
  | some t' => simp

variable {s s' : Engine (Command O) (PaymentState S R) Unit}

theorem postEffect_eq_ok {effect : Option (Posting R)} {eventId : String} {u : Unit}
    (h : postEffect ctx state effect eventId s = .ok u s') :
    ∃ ledger, Posts ctx state.opening eventId s.ledger ledger effect ∧ s' = { s with ledger := ledger } := by
  cases effect with
  | none =>
    simp only [postEffect, pure_eq_ok] at h
    exact ⟨s.ledger, rfl, h.2.symm⟩
  | some posting =>
    simp only [postEffect, Engine.post_eq_ok] at h
    obtain ⟨-, ledger, hpost, rfl⟩ := h
    exact ⟨ledger, hpost, rfl⟩

theorem transact_spec [Sha256] [DecidableEq S] {canonical : Request O R}
    (hloaded : L.loadState canonical (s.entityState.get? canonical.paymentId) = .ok state)
    (hvalid : L.validatedState ctx state canonical.paymentId = .ok ())
    (h : L.transact ctx canonical state s = .ok emitted s') : Nonempty (Transition L ctx s s' emitted) := by
  simp only [transact, bind_eq_ok, raising_eq_ok, nextTransition_eq_ok, Engine.newUuid_eq_ok, get_eq_ok,
    Engine.setEntityState_eq_ok, pure_eq_ok] at h
  obtain ⟨⟨next, kind, effect⟩, _, ⟨hlegal, rfl⟩, eventId, _, ⟨-, hseq, rfl, rfl⟩, h⟩ := h
  obtain ⟨fingerprint, _, ⟨-, rfl⟩, _, _, ⟨-, rfl⟩, _, _, ⟨rfl, rfl⟩, _, _, ⟨-, rfl⟩, h⟩ := h
  obtain ⟨_, _, hpost, _, _, ⟨-, -, rfl⟩, rfl, rfl⟩ := h
  obtain ⟨ledger, hledger, rfl⟩ := postEffect_eq_ok hpost
  exact ⟨{
    canonical := canonical, state := state, next := next, kind := kind, effect := effect
    fingerprint := fingerprint, ledger := ledger, loaded := hloaded, valid := hvalid, legal := hlegal
    sequence := hseq, posted := hledger, emits := rfl, after := rfl }⟩

/-- **What a command does.** A command that `handle` accepts is a retry, which emits and changes nothing, or one
transition of the payment it names. -/
theorem handle_spec [Sha256] [DecidableEq S] {command : Command O} (h : L.handle ctx command s = .ok emitted s') :
    (emitted = [] ∧ s' = s) ∨ Nonempty (Transition L ctx s s' emitted) := by
  simp only [handle, bind_eq_ok, raising_eq_ok, Engine.entityState?_eq_ok] at h
  obtain ⟨canonical, _, ⟨-, rfl⟩, stored, _, ⟨-, rfl, rfl⟩, state, _, ⟨hloaded, rfl⟩, h⟩ := h
  obtain ⟨_, _, ⟨hvalid, rfl⟩, isRetry, _, ⟨-, rfl⟩, h⟩ := h
  cases isRetry with
  | true =>
    simp only [if_true, pure_eq_ok] at h
    exact .inl ⟨h.1.symm, h.2.symm⟩
  | false => exact .inr (transact_spec hloaded hvalid h)

/-- the parts of the books that a turn of a lifecycle rail changes -/
structure Advanced (s s' : Engine (Command O) (PaymentState S R) Unit) (ledger : Ledger)
    (entityState : Dict String (PaymentState S R)) (events : List PaymentEvent) (uuidSequence : ℕ) : Prop where
  ledger : s'.ledger = ledger
  entityState : s'.entityState = entityState
  events : s'.events = events
  uuidSequence : s'.uuidSequence = uuidSequence
  uuidPrefix : s'.uuidPrefix = s.uuidPrefix

/-- **What a turn does.** A turn of the engine with a lifecycle rail changes nothing, or takes one transition and logs
its event. -/
theorem turn_spec [Sha256] [DecidableEq S] {command : Command O} {s₁ : Engine (Command O) (PaymentState S R) Unit}
    (h : L.handle ctx command s = .ok emitted s₁) (happend : Engine.appendBatch emitted s₁ = .ok () s') :
    Advanced s s' s.ledger s.entityState s.events s.uuidSequence ∨
      ∃ t : Transition L ctx s s₁ emitted, Advanced s s' t.ledger
        (s.entityState.set t.canonical.paymentId t.updated) (s.events ++ [t.event]) (s.uuidSequence + 1) := by
  obtain ⟨-, -, hs'⟩ := Engine.appendBatch_spec happend
  rcases handle_spec h with ⟨hnone, hsame⟩ | ⟨⟨t⟩⟩
  · subst hnone hsame
    left
    rw [hs']
    exact ⟨rfl, rfl, by simp, rfl, rfl⟩
  · right
    have hsorted : emitted.insertionSort (fun a b => eventKey a ≤ eventKey b) = [t.event] :=
      congrArg (List.insertionSort fun a b => eventKey a ≤ eventKey b) t.emits
    refine ⟨t, { ledger := ?_, entityState := ?_, events := ?_, uuidSequence := ?_, uuidPrefix := ?_ }⟩
    · rw [hs']
      exact congrArg Engine.ledger t.after
    · rw [hs']
      exact congrArg Engine.entityState t.after
    · have hevents : s₁.events = s.events := by rw [t.after]
      rw [hs', ← hsorted, ← hevents]
    · rw [hs']
      exact congrArg Engine.uuidSequence t.after
    · have hhead : s₁.uuidPrefix = s.uuidPrefix := by rw [t.after]
      rw [hs', ← hhead]

theorem Transition.loaded_cases [Sha256] [DecidableEq S] (t : Transition L ctx s s' emitted) :
    s.entityState.get? t.canonical.paymentId = some t.state ∨
      s.entityState.get? t.canonical.paymentId = none ∧ t.state.state = L.created := by
  have h := t.loaded
  unfold loadState at h
  cases hget : s.entityState.get? t.canonical.paymentId with
  | some state =>
    simp only [hget, Except.ok.injEq] at h
    exact .inl (h ▸ rfl)
  | none =>
    cases ho : t.canonical.opening with
    | none => simp [hget, ho] at h
    | some o =>
      simp only [hget, ho, Except.ok.injEq] at h
      exact .inr ⟨rfl, h ▸ rfl⟩

theorem event_paymentId (L : Lifecycle S O R) (viewpoint : String) (now : Time) (state : PaymentState S R)
    (kind : EventKind) (eventId previousEventId : String) :
    (L.event viewpoint now state kind eventId previousEventId).paymentId? = some state.paymentId := by
  simp [event, PaymentEvent.paymentId?, Dict.ofList, Dict.get?_set]

theorem init_spec {u : Unit} (h : L.init s = .ok u s') : s' = s := by
  simp only [init, bind_eq_ok, get_eq_ok, guard_eq_ok] at h
  obtain ⟨_, _, ⟨rfl, rfl⟩, -, rfl⟩ := h
  rfl

end Lifecycle

end Apar
