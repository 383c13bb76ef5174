/-
The payment event contract: the rail-neutral event every adapter emits, and its validators.

`PaymentEvent.validate` is what constructing or revalidating an event checks. A timestamp is a UTC instant in
microseconds since the epoch. Not modelled: `party_refs` values and `privacy` labels beyond what the adapters write, `extensions`
(always empty), and naive or non-UTC datetimes, which no caller can put in a `Time`.
-/
import Apar.Core.Dict
import Apar.Core.Exec
import Apar.Core.Digest

namespace Apar

/-- a UTC instant in microseconds since the epoch -/
abbrev Time := ℤ

inductive Rail where
  | card
  | a2a
  | agentic
deriving DecidableEq, Repr

namespace Rail

def value : Rail → String
  | card => "card"
  | a2a => "a2a"
  | agentic => "agentic"

end Rail

inductive EventKind where
  | authorization
  | authorizationDeclined
  | authenticationChallenge
  | clearing
  | settlement
  | reversal
  | transferInitiated
  | transferAccepted
  | transferRejected
  | transferPosted
  | transferReturned
  | fundsFrozen
  | refund
  | fraudReported
  | disputeOpened
  | chargeback
  | recovery
deriving DecidableEq, Repr

namespace EventKind

def value : EventKind → String
  | authorization => "authorization"
  | authorizationDeclined => "authorization_declined"
  | authenticationChallenge => "authentication_challenge"
  | clearing => "clearing"
  | settlement => "settlement"
  | reversal => "reversal"
  | transferInitiated => "transfer_initiated"
  | transferAccepted => "transfer_accepted"
  | transferRejected => "transfer_rejected"
  | transferPosted => "transfer_posted"
  | transferReturned => "transfer_returned"
  | fundsFrozen => "funds_frozen"
  | refund => "refund"
  | fraudReported => "fraud_reported"
  | disputeOpened => "dispute_opened"
  | chargeback => "chargeback"
  | recovery => "recovery"

end EventKind

/-- a `rail_data` or `lineage` value; the adapters write only texts and flags -/
inductive FieldValue where
  | text (s : String)
  | flag (b : Bool)
  /-- an integer or a float, by its text -/
  | number (text : String)
deriving DecidableEq, Repr

/-- what the simulator and the contracts raise -/
inductive SimError where
  | valueError (message : String)
  | typeError (message : String)
  | keyError
  | overflowError (message : String)
  | assertionError (message : String)
  /-- `LifecycleError(code)` -/
  | lifecycle (code : String)
  /-- `decimal.InvalidOperation` -/
  | invalidOperation
  /-- `CorpusVerificationError(message)` -/
  | corpus (message : String)
  /-- `MetricContractError(message)` -/
  | metric (message : String)
  /-- what an external callback raises -/
  | external
  /-- `SimulationFailedError` -/
  | failed
deriving DecidableEq, Repr

structure PaymentEvent where
  schemaVersion : String
  eventId : String
  campaignId : String
  traceId : String
  rail : Rail
  viewpoint : String
  eventType : EventKind
  amount : Decimal
  currency : String
  eventTime : Time
  ingestedAt : Time
  availableAt : Time
  decisionAt : Option Time
  actorId : String
  counterpartyId : String
  partyRefs : Dict String String
  railData : Dict String FieldValue
  lineage : Dict String FieldValue
  privacy : Dict String String

/-- `validate_uuid` -/
def validUuid (s : String) : Bool := (Uuid.parseUuid s).isSome

/-- `_text`: non-empty -/
def checkText (label value : String) : Except SimError Unit :=
  Exec.check (value ≠ "") (.valueError (label ++ " must not be empty"))

/-- `_uuid_text` -/
def checkUuid (label value : String) : Except SimError Unit := do
  checkText label value
  Exec.check (validUuid value) (.valueError (label ++ " must be a UUID string"))

/-- a decimal number without leading zeros -/
def isVersionNumber (cs : List Char) : Bool :=
  !cs.isEmpty && cs.all Char.isDigit && (cs.length == 1 || cs.head? != some '0')

/-- `validate_schema_version`: a semantic version of the supported major -/
def validateSchemaVersion (s : String) : Except SimError Unit :=
  match s.toList.splitOn '.' with
  | [major, minor, patch] =>
    if !([major, minor, patch].all isVersionNumber) then
      .error (.valueError "schema_version must be a semantic version")
    else if major ≠ ['1'] then .error (.valueError "unsupported schema major version")
    else .ok ()
  | _ => .error (.valueError "schema_version must be a semantic version")

namespace PaymentEvent

/-- the first validator of an event that fails -/
def validate (e : PaymentEvent) : Except SimError Unit := do
  validateSchemaVersion e.schemaVersion
  if !([e.eventId, e.campaignId, e.traceId, e.actorId, e.counterpartyId].all validUuid) then
    .error (.valueError "must be a UUID string")
  else if e.ingestedAt < e.eventTime then .error (.valueError "ingested_at must be at or after event_time")
  else if e.availableAt < e.ingestedAt then .error (.valueError "available_at must be at or after ingested_at")
  else if e.decisionAt.any (· < e.availableAt) then
    .error (.valueError "decision_at must be at or after available_at")
  else if !Decimal.ble 0 e.amount then .error (.valueError "amount must be non-negative")
  else .ok ()

/-- `event.rail_data.get("payment_id")` -/
def paymentId? (e : PaymentEvent) : Option String :=
  match e.railData.get? "payment_id" with
  | some (.text s) => some s
  | _ => none

end PaymentEvent

end Apar
