/-
Value accountings over the events of a run: the outstanding principal of illicit parties (`role_bound_settled_value` and
`_role_bound_value_components` in `redteam/benchmark.py`), and the settled value of a legitimate campaign
(`_realize_legitimate_campaign_evidence` in `evaluation/v5_population.py`).

The first two keep one balance for each payment and subtract a principal at most once; the third adds and subtracts over
all events. All compute in the default decimal context, and the first two give out whole cents.

Not modelled: the fields of `CampaignEvidence` that realising it leaves as they are.
-/
import Apar.Core.Sorting
import Apar.Simulator.Rails.Lifecycle

namespace Apar

open Exec

namespace SettledValue

/-- `positive`: the events that pay a principal out -/
def isPositive (kind : EventKind) : Bool := kind ∈ [EventKind.settlement, .transferPosted]

/-- `negative`: the events that take it back -/
def isNegative (kind : EventKind) : Bool := kind ∈ [EventKind.recovery, .chargeback, .transferReturned, .refund]

/-- `{event.actor_id, event.counterparty_id} & illicit_entity_ids` -/
def isBound (illicit : Finset String) (e : PaymentEvent) : Bool :=
  decide (e.actorId ∈ illicit) || decide (e.counterpartyId ∈ illicit)

/-- `event.rail_data.get("payment_id", event.trace_id)` -/
def rawPaymentId (e : PaymentEvent) : FieldValue := e.railData.getD "payment_id" (.text e.traceId)

/-- `_money` -/
def cents (value : Decimal) : Except SimError Decimal :=
  match value.quantize .default (-2) with
  | none => .error .invalidOperation
  | some q => .ok q

/-! ## Outstanding principal -/

/-- `max(Decimal(0), value)` -/
def clamp (value : Decimal) : Decimal := if Decimal.ble value 0 then 0 else value

/-- what an event of a payment does to its outstanding principal -/
def outstandingAfter (amount current : Decimal) (kind : EventKind) : Decimal :=
  if isPositive kind then .add .default current amount
  else if isNegative kind then clamp (.sub .default current amount)
  else current

/-- one turn of the loop of `role_bound_settled_value`; an event that neither pays out nor takes back leaves the
dictionary as it is -/
def addOutstanding (illicit : Finset String) (outstanding : Dict String Decimal) (e : PaymentEvent) :
    Except SimError (Dict String Decimal) :=
  if !isBound illicit e then .ok outstanding
  else
    match rawPaymentId e with
    | .text id =>
      if isPositive e.eventType || isNegative e.eventType then
        .ok (outstanding.set id (outstandingAfter e.amount (outstanding.getD id 0) e.eventType))
      else .ok outstanding
    | _ => .error (.valueError "payment lifecycle identity must be an exact string")

/-- `role_bound_settled_value` -/
def roleBoundSettledValue (events : List PaymentEvent) (illicit : Finset String) : Except SimError Decimal := do
  let outstanding ← events.foldlM (addOutstanding illicit) ∅
  cents (.sum .default outstanding.values)

/-! ## Value components -/

structure Components where
  positive : Decimal
  removed : Decimal
  outstanding : Decimal

/-- `values.get(payment_id, (Decimal(0), Decimal(0), Decimal(0)))` -/
def Components.zero : Components := ⟨0, 0, 0⟩

/-- `min(outstanding, event.amount)` -/
def least (a b : Decimal) : Decimal := if Decimal.ble a b then a else b

/-- the components of a payment after one more event, before they are rounded -/
def Components.record (c : Components) (amount : Decimal) (kind : EventKind) : Components :=
  if isPositive kind then
    { c with positive := .add .default c.positive amount, outstanding := .add .default c.outstanding amount }
  else if isNegative kind then
    let applied := least c.outstanding amount
    { c with removed := .add .default c.removed applied, outstanding := .sub .default c.outstanding applied }
  else c

def Components.cents (c : Components) : Except SimError Components := do
  let positive ← SettledValue.cents c.positive
  let removed ← SettledValue.cents c.removed
  let outstanding ← SettledValue.cents c.outstanding
  return ⟨positive, removed, outstanding⟩

/-- one turn of the loop of `_role_bound_value_components` -/
def addComponents (illicit : Finset String) (values : Dict String Components) (e : PaymentEvent) :
    Except SimError (Dict String Components) :=
  if !isBound illicit e then .ok values
  else
    match rawPaymentId e with
    | .text id => do
      let components ← ((values.getD id .zero).record e.amount e.eventType).cents
      return values.set id components
    | _ => .ok values

/-- `_role_bound_value_components` -/
def roleBoundValueComponents (events : List PaymentEvent) (illicit : Finset String) :
    Except SimError (List (String × Components)) := do
  let values ← events.foldlM (addComponents illicit) ∅
  return sortBy Prod.fst values.items

/-! ## Realised evidence -/

/-- the events that settle value for a campaign -/
def settles (rail : Rail) (kind : EventKind) : Bool :=
  isPositive kind || (rail = .agentic && kind = .authorization)

/-- the events that unsettle it; a recovery does so on the A2A rail only -/
def unsettles (rail : Rail) (kind : EventKind) : Bool :=
  kind ∈ [EventKind.refund, .chargeback] || (rail = .a2a && kind ∈ [EventKind.transferReturned, .recovery])

/-- one turn of the loop over the events -/
def addSettled (settledValue : Decimal) (e : PaymentEvent) : Decimal :=
  if settles e.rail e.eventType then .add .default settledValue e.amount
  else if unsettles e.rail e.eventType then .sub .default settledValue e.amount
  else settledValue

def settledValue (events : List PaymentEvent) : Decimal := events.foldl addSettled 0

/-- the names of the commands that open a payment -/
def openingNames : List String := ["a2a.initiate", "card.authorize", "card.decline", "agentic.pay"]

structure CampaignEvidence where
  family : String
  valueTotal : Decimal
  attemptedValue : Decimal
  uniqueAttemptedValue : Decimal
  settledValue : Decimal
  replaySucceeded : Bool
  ledgerConserved : Bool

/-- `_realize_legitimate_campaign_evidence` -/
def realizeLegitimateCampaignEvidence {O : Type} (contract : CampaignEvidence) (commands : List (Command O))
    (events : List PaymentEvent) : Except SimError CampaignEvidence := do
  check (contract.family = "legitimate")
    (.valueError "only an all-legitimate ground-truth contract can be realized")
  let attempted ← (commands.filter fun c => c.name ∈ openingNames).mapM fun c =>
    Lifecycle.payloadDecimal c.payload "amount"
  let attemptedValue := Decimal.sum .default attempted
  return { contract with
    valueTotal := attemptedValue
    attemptedValue := attemptedValue
    uniqueAttemptedValue := attemptedValue
    settledValue := settledValue events
    replaySucceeded := false
    ledgerConserved := false }

end SettledValue

end Apar
