/-
Evaluator truth (`evaluation/corpus.py`) and its revalidation (`evaluation/metrics.py`): what a payment's lifecycle
events say it has settled, net of the events that give value back.

`assembleTruth` groups a run's events by payment and builds one truth row for each; `validateLifecycles` recomputes every
row from the observations and rejects a negative net settlement. The truth row adds with Python's default decimal
context, the revalidation with decimal128 in whole cents.

Not modelled: the authentication of the runs and the parsing of their artifacts, which come before the assembly, and
the limits on identifier length.
-/
import Apar.Core.Sorting
import Apar.Simulator.Engine
import Apar.Defense.Observation

namespace Apar

open Exec

/-- `_SETTLEMENT_EVENTS` -/
def settlementEvents : List EventKind := [.settlement, .transferPosted]

/-- `_REVERSING_EVENTS` -/
def reversingEvents : List EventKind := [.reversal, .transferReturned, .refund, .chargeback, .recovery]

inductive LabelSource where
  | populationTruth
  | integrityTruth
deriving DecidableEq, Repr

/-- `EvaluationTruthRow` of the development viewpoint -/
structure TruthRow where
  eventId : String
  paymentId : String
  campaignId : String
  family : String
  isFraud : Bool
  labelSource : LabelSource
  labelMatureAt : Time
  firstSettlementAt : Option Time
  netSettledValue : Decimal
  lifecycleEventIds : List String

/-! ## Assembly -/

def daysToTime (days : ℕ) : Time := days * 86400000000

/-- `population_truth[actor_id] or population_truth[counterparty_id]` -/
def populationLabel (populationTruth : Dict String Bool) (actorId counterpartyId : String) : Except SimError Bool :=
  match populationTruth.get? actorId with
  | none => .error .keyError
  | some true => .ok true
  | some false =>
    match populationTruth.get? counterpartyId with
    | none => .error .keyError
    | some illicit => .ok illicit

/-- the net settlement `_truth_row` computes from a lifecycle -/
def netSettled (ctx : DecimalContext) (lifecycle : List PaymentEvent) : Decimal :=
  let ordered := sortBy eventKey lifecycle
  let settlements := ordered.filter fun e => settlementEvents.contains e.eventType
  let reversals := ordered.filter fun e => reversingEvents.contains e.eventType
  .sub ctx (.sum ctx (settlements.map PaymentEvent.amount)) (.sum ctx (reversals.map PaymentEvent.amount))

/-- `_truth_row` -/
def truthRow (ctx : DecimalContext) (opening : PaymentEvent) (lifecycle : List PaymentEvent)
    (populationTruth : Dict String Bool) (family : String) (labelDelayDays : ℕ) : Except SimError TruthRow := do
  let observed ← scrubEvent opening
  let ordered := sortBy eventKey lifecycle
  let settlements := ordered.filter fun e => settlementEvents.contains e.eventType
  let firstSettlementAt := settlements.head?.map PaymentEvent.eventTime
  let delayed := opening.decisionAt.getD opening.availableAt + daysToTime labelDelayDays
  let labelMatureAt := firstSettlementAt.elim delayed (max delayed)
  let label ←
    if observed.integrityStatus = .fail then pure (true, LabelSource.integrityTruth)
    else do
      let isFraud ← populationLabel populationTruth opening.actorId opening.counterpartyId
      pure (isFraud, LabelSource.populationTruth)
  return {
    eventId := opening.eventId
    paymentId := observed.paymentId
    campaignId := opening.campaignId
    family := family
    isFraud := label.1
    labelSource := label.2
    labelMatureAt := labelMatureAt
    firstSettlementAt := firstSettlementAt
    netSettledValue := netSettled ctx lifecycle
    lifecycleEventIds := ordered.map PaymentEvent.eventId }

/-- `_payment_id` -/
def corpusPaymentId (e : PaymentEvent) : Except SimError String :=
  match e.paymentId? with
  | some paymentId => if paymentId = "" then .error (.corpus "event has no payment ID") else .ok paymentId
  | none => .error (.corpus "event has no payment ID")

/-- `_opening` -/
def isOpeningEvent (e : PaymentEvent) : Bool := isDecisionPoint e.rail e.eventType

/-- what `_validate_event_identities` has seen -/
structure SeenIdentities where
  eventIds : List String
  paymentCampaigns : Dict String String
  openingByPayment : Dict String String

def checkIdentity (seen : SeenIdentities) (e : PaymentEvent) : Except SimError SeenIdentities := do
  check (!seen.eventIds.contains e.eventId) (.corpus "duplicate event ID in corpus")
  check (e.lineage.get? "synthetic" = some (.flag true)) (.corpus "corpus accepts synthetic events only")
  let paymentId ← corpusPaymentId e
  check ((seen.paymentCampaigns.get? paymentId).all fun c => c = e.campaignId)
    (.corpus "payment ID reused across campaigns")
  check (!isOpeningEvent e || (seen.openingByPayment.get? paymentId).all fun i => i = e.eventId)
    (.corpus "duplicate payment opening")
  return {
    eventIds := e.eventId :: seen.eventIds
    paymentCampaigns := seen.paymentCampaigns.set paymentId e.campaignId
    openingByPayment := if isOpeningEvent e then seen.openingByPayment.set paymentId e.eventId
      else seen.openingByPayment }

/-- `_validate_event_identities` -/
def validateEventIdentities (events : List PaymentEvent) : Except SimError Unit := do
  let _ ← events.foldlM checkIdentity ⟨[], ∅, ∅⟩
  return ()

/-- the lifecycle of every payment, in the order of payment ids -/
def groupByPayment (events : List PaymentEvent) : List (String × List PaymentEvent) :=
  (sortedSet (events.filterMap PaymentEvent.paymentId?)).map fun paymentId =>
    (paymentId, events.filter fun e => e.paymentId? = some paymentId)

/-- the truth row of one payment, from its only opening -/
def groupTruth (ctx : DecimalContext) (populationTruth : Dict String Bool) (family : String) (labelDelayDays : ℕ)
    (group : String × List PaymentEvent) : Except SimError TruthRow :=
  match group.2.filter isOpeningEvent with
  | [opening] => truthRow ctx opening group.2 populationTruth family labelDelayDays
  | _ => .error (.corpus ("payment " ++ group.1 ++ " lifecycle must resolve to exactly one opening"))

/-- the truth of one run: `assemble_verified_corpus` after its artifacts are parsed -/
def assembleTruth (ctx : DecimalContext) (events : List PaymentEvent) (populationTruth : Dict String Bool)
    (family : String) (labelDelayDays : ℕ) : Except SimError (List TruthRow) := do
  validateEventIdentities events
  let truth ← (groupByPayment events).mapM (groupTruth ctx populationTruth family labelDelayDays)
  return sortBy TruthRow.eventId truth

/-! ## Revalidation -/

/-- `_money_add` -/
def moneyAdd (left right : Decimal) : Except SimError Decimal :=
  match (Decimal.add .decimal128 left right).quantize .decimal128 (-2) with
  | some d => .ok d
  | none => .error (.metric "money arithmetic exceeds Decimal128 bounds")

/-- `_money_subtract(left, right, allow_negative=True)` -/
def moneySubtract (left right : Decimal) : Except SimError Decimal :=
  match (Decimal.sub .decimal128 left right).quantize .decimal128 (-2) with
  | some d => .ok d
  | none => .error (.metric "money arithmetic exceeds Decimal128 bounds")

/-- `_money_sum` -/
def moneySum (values : List Decimal) : Except SimError Decimal := values.foldlM moneyAdd ⟨0, -2⟩

/-- the key of the lifecycle order -/
def observedKey (e : ObservedEvent) : Time ×ₗ String := toLex (e.eventTime, e.eventId)

/-- the checks `_validate_lifecycles` makes on one row; the result is the lifecycle's currency -/
def validateLifecycle (observations : List ObservedEvent) (truth : TruthRow) : Except SimError String := do
  let lifecycle := sortBy observedKey (observations.filter fun e => e.paymentId = truth.paymentId)
  let expectedIds := lifecycle.map ObservedEvent.eventId
  check (truth.lifecycleEventIds.all expectedIds.contains && expectedIds.all truth.lifecycleEventIds.contains)
    (.metric "truth lifecycle IDs must exactly cover every observation for its payment")
  check (truth.lifecycleEventIds = expectedIds) (.metric "truth lifecycle IDs must use canonical lifecycle order")
  match (lifecycle.map ObservedEvent.currency).dedup with
  | [currency] => do
    let settlements := lifecycle.filter fun e => settlementEvents.contains e.eventType
    check (settlements.head?.map ObservedEvent.eventTime = truth.firstSettlementAt)
      (.metric "truth first settlement does not match lifecycle evidence")
    let settled ← moneySum (settlements.map ObservedEvent.amount)
    let reversed ← moneySum
      ((lifecycle.filter fun e => reversingEvents.contains e.eventType).map ObservedEvent.amount)
    let net ← moneySubtract settled reversed
    check (Decimal.ble 0 net) (.metric "lifecycle net settlement must be nonnegative")
    check (net.numEq truth.netSettledValue) (.metric "truth net settlement does not match lifecycle evidence")
    return currency
  | _ => .error (.metric "mixed currency within a payment lifecycle")

/-- `_validate_lifecycles` -/
def validateLifecycles (truthRows : List TruthRow) (observations : List ObservedEvent) :
    Except SimError (Option String) := do
  check (decide (truthRows.map TruthRow.paymentId).Nodup) (.metric "truth payment IDs must be unique")
  let currencies ← truthRows.mapM (validateLifecycle observations)
  check (decide (currencies.dedup.length ≤ 1)) (.metric "mixed-currency metric aggregation is forbidden")
  return currencies.head?

end Apar
