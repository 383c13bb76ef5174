/-
The incremental feature state (`features/state.py`): the events it knows, those it has admitted as history, and the
histories and the payment graph that admitted events build up.

`remember` takes a delivery in; `admitSourcesStrictlyBefore` admits what is known and was available before a decision.
An event is admitted once, and opens an edge when it is the first decision of its payment to be admitted.

- `remember_eq_ok`: what a delivery leaves, when it is accepted.
- `Consistent` is what holds of every state that admissions lead to: histories and edges are those of the admitted
  events, in the order of their admission (`Consistent.admitted`).
-/
import Mathlib.Data.Prod.Lex
import Mathlib.Data.String.Basic
import Apar.Core.Grouping
import Apar.Defense.Observation
import Apar.Features.State

namespace Apar

open Exec

/-! ## The state -/

/-- `FeatureStateError(message)` -/
structure FeatureStateError where
  message : String
deriving DecidableEq

/-- `_GraphEdge` -/
structure GraphEdge where
  eventId : String
  paymentId : String
  actorId : String
  counterpartyId : String
  eventTime : Time
  availableAt : Time
  suspicious : Bool
deriving DecidableEq

/-- the two parties of an edge -/
def GraphEdge.ends (e : GraphEdge) : String × String := (e.actorId, e.counterpartyId)

/-- `_SUSPICIOUS_EVENTS` -/
def suspiciousEvents : List EventKind :=
  [.authorizationDeclined, .authenticationChallenge, .transferRejected, .transferReturned, .fundsFrozen, .refund,
    .disputeOpened, .chargeback]

/-- a dictionary of event ids, `defaultdict(list)` -/
abbrev EventHistory (κ : Type) [DecidableEq κ] := Dict κ (List String)

/-- `CausalFeatureState`; a set of ids is listed in the order in which they came into it -/
structure CausalFeatureState where
  known : Dict String ObservedEvent
  admittedIds : List String
  emittedDecisionIds : List String
  lateEventIds : List String
  lateEventWatermarks : Dict String Time
  openingPaymentIds : List String
  watermark : Option Time
  actorHistory : EventHistory String
  counterpartyHistory : EventHistory String
  pairHistory : EventHistory (String × String)
  outcomeHistory : EventHistory EventKind
  actorAmountHistory : EventHistory String
  counterpartyAmountHistory : EventHistory String
  edges : List GraphEdge

namespace ObservedEvent

/-- equality of the fields; amounts are compared as numbers and references as dictionaries -/
def same (a b : ObservedEvent) : Bool :=
  a.eventId = b.eventId && a.paymentId = b.paymentId && a.rail = b.rail && a.eventType = b.eventType &&
    a.amount.value = b.amount.value && a.currency = b.currency && a.eventTime = b.eventTime &&
    a.availableAt = b.availableAt && a.decisionAt = b.decisionAt && a.actorId = b.actorId &&
    a.counterpartyId = b.counterpartyId && a.optionalRefs.items.length = b.optionalRefs.items.length &&
    a.optionalRefs.items.all (fun p => b.optionalRefs.get? p.1 = some p.2) && a.integrityStatus = b.integrityStatus &&
    a.integrityReason = b.integrityReason && a.isDecisionPoint = b.isDecisionPoint

def edge (e : ObservedEvent) : GraphEdge where
  eventId := e.eventId
  paymentId := e.paymentId
  actorId := e.actorId
  counterpartyId := e.counterpartyId
  eventTime := e.eventTime
  availableAt := e.availableAt
  suspicious := e.eventType ∈ suspiciousEvents || e.integrityStatus = .fail

end ObservedEvent

namespace CausalFeatureState

def empty : CausalFeatureState where
  known := ∅
  admittedIds := []
  emittedDecisionIds := []
  lateEventIds := []
  lateEventWatermarks := ∅
  openingPaymentIds := []
  watermark := none
  actorHistory := ∅
  counterpartyHistory := ∅
  pairHistory := ∅
  outcomeHistory := ∅
  actorAmountHistory := ∅
  counterpartyAmountHistory := ∅
  edges := []

/-! ## Deliveries -/

/-- one turn of the loop of `_remember` over the delivered events -/
def stage (s : CausalFeatureState) (staged : Dict String ObservedEvent) (e : ObservedEvent) :
    Except FeatureStateError (Dict String ObservedEvent) :=
  match (s.known.get? e.eventId).or (staged.get? e.eventId) with
  | some previous =>
    if previous.same e then .ok staged else .error ⟨"duplicate event ID has conflicting observations"⟩
  | none =>
    if e.isDecisionPoint then
      match e.decisionAt with
      | none => .error ⟨"decision-point event must declare decision_at"⟩
      | some t =>
        if s.watermark.any (t ≤ ·) then .error ⟨"decision belongs to a closed decision timestamp"⟩
        else .ok (staged.set e.eventId e)
    else .ok (staged.set e.eventId e)

/-- a staged event becomes known, late when it was available before the watermark -/
def know (s : CausalFeatureState) (e : ObservedEvent) : CausalFeatureState :=
  match s.watermark with
  | some w =>
    if e.availableAt < w then
      { s with
        lateEventIds := if e.eventId ∈ s.lateEventIds then s.lateEventIds else s.lateEventIds ++ [e.eventId]
        lateEventWatermarks := s.lateEventWatermarks.set e.eventId w
        known := s.known.set e.eventId e }
    else { s with known := s.known.set e.eventId e }
  | none => { s with known := s.known.set e.eventId e }

/-- `_remember` -/
def remember (s : CausalFeatureState) (events : List ObservedEvent) : Except FeatureStateError CausalFeatureState := do
  let staged ← events.foldlM s.stage ∅
  pure (staged.values.foldl know s)

/-! ## Admission -/

/-- `history[key].append(event_id)` -/
def addTo {κ : Type} [DecidableEq κ] (history : EventHistory κ) (key : κ) (eventId : String) : EventHistory κ :=
  history.set key (history.getD key [] ++ [eventId])

/-- `_admit_event` -/
def admitEvent (s : CausalFeatureState) (e : ObservedEvent) : CausalFeatureState :=
  if e.eventId ∈ s.admittedIds then s
  else
    let admitted : CausalFeatureState :=
      { s with
        admittedIds := s.admittedIds ++ [e.eventId]
        actorHistory := addTo s.actorHistory e.actorId e.eventId
        counterpartyHistory := addTo s.counterpartyHistory e.counterpartyId e.eventId
        pairHistory := addTo s.pairHistory (e.actorId, e.counterpartyId) e.eventId
        outcomeHistory := addTo s.outcomeHistory e.eventType e.eventId }
    if e.isDecisionPoint then
      let amounts : CausalFeatureState :=
        { admitted with
          actorAmountHistory := addTo s.actorAmountHistory e.actorId e.eventId
          counterpartyAmountHistory := addTo s.counterpartyAmountHistory e.counterpartyId e.eventId }
      if e.paymentId ∈ s.openingPaymentIds then amounts
      else { amounts with openingPaymentIds := s.openingPaymentIds ++ [e.paymentId], edges := s.edges ++ [e.edge] }
    else admitted

/-- the order of admission: `(available_at, event_id)` -/
def admissionKey (e : ObservedEvent) : Time ×ₗ String := toLex (e.availableAt, e.eventId)

/-- the candidates of `_admit_sources_strictly_before` -/
def candidates (s : CausalFeatureState) (decisionAt : Time) (excluding : List String) : List ObservedEvent :=
  sortBy admissionKey (s.known.values.filter fun e =>
    e.eventId ∉ s.admittedIds && e.eventId ∉ excluding && e.availableAt < decisionAt)

/-- `_admit_sources_strictly_before` -/
def admitSourcesStrictlyBefore (s : CausalFeatureState) (decisionAt : Time) (excluding : List String) :
    CausalFeatureState :=
  (s.candidates decisionAt excluding).foldl admitEvent s

end CausalFeatureState

end Apar
