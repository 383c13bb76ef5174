/-
The defender-visible event (`defense/contracts.py`): `scrubEvent` projects a payment event onto the closed schema the
feature, case and evaluation code reads. Decision points are the events that open a payment.
-/
import Apar.Contracts.Event

namespace Apar

inductive IntegrityStatus where
  | pass
  | fail
  | notApplicable
deriving DecidableEq, Repr

structure ObservedEvent where
  eventId : String
  paymentId : String
  rail : Rail
  eventType : EventKind
  amount : Decimal
  currency : String
  eventTime : Time
  availableAt : Time
  decisionAt : Option Time
  actorId : String
  counterpartyId : String
  optionalRefs : Dict String String
  integrityStatus : IntegrityStatus
  integrityReason : Option String
  isDecisionPoint : Bool

/-- `_OPTIONAL_REFERENCE_NAMES` -/
def optionalReferenceNames : List String :=
  ["merchant_id", "payee_id", "beneficiary_entity_id", "user_entity_id", "device_id", "institution_id", "agent_id"]

/-- `_integrity` -/
def integrity (e : PaymentEvent) : IntegrityStatus × Option String :=
  if e.rail ≠ .agentic then (.notApplicable, none)
  else
    match e.railData.get? "integrity" with
    | some (.text "pass") => (.pass, none)
    | some (.text "fail") =>
      match e.railData.get? "reason_code" with
      | some (.text reason) => (.fail, some (if reason = "" then "receipt_failed" else reason))
      | _ => (.fail, some "receipt_failed")
    | _ => (.fail, some "missing_receipt_integrity")

/-- `_is_decision_point` -/
def isDecisionPoint (rail : Rail) (eventType : EventKind) : Bool :=
  match rail with
  | .card => eventType = .authorization || eventType = .authorizationDeclined
  | .a2a => eventType = .transferInitiated
  | .agentic =>
    eventType = .authorization || eventType = .authenticationChallenge || eventType = .authorizationDeclined

/-- the projection of an event with a known payment id -/
def observe (e : PaymentEvent) (paymentId : String) : ObservedEvent where
  eventId := e.eventId
  paymentId := paymentId
  rail := e.rail
  eventType := e.eventType
  amount := e.amount
  currency := e.currency
  eventTime := e.eventTime
  availableAt := e.availableAt
  decisionAt := e.decisionAt
  actorId := e.actorId
  counterpartyId := e.counterpartyId
  optionalRefs := e.partyRefs.filter fun p => optionalReferenceNames.contains p.1
  integrityStatus := (integrity e).1
  integrityReason := (integrity e).2
  isDecisionPoint := isDecisionPoint e.rail e.eventType

/-- `scrub_event` -/
def scrubEvent (e : PaymentEvent) : Except SimError ObservedEvent :=
  match e.paymentId? with
  | some paymentId =>
    if paymentId = "" then .error (.valueError "event rail_data must contain a non-empty payment_id")
    else .ok (observe e paymentId)
  | none => .error (.valueError "event rail_data must contain a non-empty payment_id")

theorem scrubEvent_eq_ok {e : PaymentEvent} {paymentId : String} (h : e.paymentId? = some paymentId)
    (hne : paymentId ≠ "") : scrubEvent e = .ok (observe e paymentId) := by
  simp [scrubEvent, h, hne]

end Apar
