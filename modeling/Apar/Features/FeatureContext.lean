/-
The features of one decision (`_FeatureContext` of `features/state.py`): each a value computed from the decision and from
events and edges of the state, together with the ids of those it read.
-/
import Apar.Core.Components
import Apar.Core.Floats
import Apar.Features.CausalState

namespace Apar

open PyFloat

/-! ## What a feature reads -/

/-- a value and the ids it was read from, `source_ids` -/
structure Sourced (α : Type) where
  value : α
  sources : List String

namespace Sourced

variable {α β γ : Type}

/-- a value of the decision itself -/
def current (a : α) : Sourced α := ⟨a, []⟩

def map (f : α → β) (x : Sourced α) : Sourced β := ⟨f x.value, x.sources⟩

def map₂ (f : α → β → γ) (x : Sourced α) (y : Sourced β) : Sourced γ := ⟨f x.value y.value, x.sources ++ y.sources⟩

end Sourced

/-- the floats of the features: `statistics.pstdev`, `statistics.fmean` and `x == 0.0` -/
class FeatureMath (F : Type) extends FloatMath F where
  pstdev : List F → F
  fmean : List F → F
  isZero : F → Bool

/-- one decision and the state it is computed from -/
structure FeatureContext where
  state : CausalFeatureState
  event : ObservedEvent
  decisionAt : Time

namespace FeatureContext

/-- a number of microseconds -/
def seconds (n : ℤ) : ℤ := n * 1000000

def minute : ℤ := seconds 60

def hour : ℤ := seconds 3600

def day : ℤ := seconds 86400

/-- `_SENTINEL` -/
def sentinel {F : Type} [PyFloat F] : F := ofInt (-1)

section

variable (c : FeatureContext)

/-- `_events`; every id of a history is known -/
def events (eventIds : List String) (window : Option ℤ) (outcomes : Option (List EventKind)) : Sourced (List ObservedEvent) :=
  let selected := (eventIds.filterMap c.state.known.get?).filter fun e =>
    e.eventTime ≤ c.event.eventTime && window.all (fun w => c.event.eventTime - w ≤ e.eventTime) &&
      outcomes.all (fun kinds => e.eventType ∈ kinds)
  ⟨selected, selected.map ObservedEvent.eventId⟩

/-- `_actor` -/
def actor (window : Option ℤ) : Sourced (List ObservedEvent) :=
  c.events (c.state.actorHistory.getD c.event.actorId []) window none

/-- `_counterparty` -/
def counterparty (window : Option ℤ) : Sourced (List ObservedEvent) :=
  c.events (c.state.counterpartyHistory.getD c.event.counterpartyId []) window none

/-- `_pair` -/
def pair (window : Option ℤ) : Sourced (List ObservedEvent) :=
  c.events (c.state.pairHistory.getD (c.event.actorId, c.event.counterpartyId) []) window none

/-- `_amount_events` -/
def amountEvents (isActor : Bool) : Sourced (List ObservedEvent) :=
  c.events
    (if isActor then c.state.actorAmountHistory.getD c.event.actorId []
      else c.state.counterpartyAmountHistory.getD c.event.counterpartyId [])
    (some day) none

/-- `_graph_edges` -/
def graphEdges (window : ℤ) : Sourced (List GraphEdge) :=
  let selected := c.state.edges.filter fun e => c.event.eventTime - window ≤ e.eventTime && e.eventTime ≤ c.event.eventTime
  ⟨selected, selected.map GraphEdge.eventId⟩

/-- `_history_24h` -/
def history24h : Sourced (List ObservedEvent) := c.events c.state.admittedIds (some day) none

end

/-! ## The features of the decision itself -/

section

variable {F : Type} [FeatureMath F] (c : FeatureContext)

/-- a number of things -/
def count {α : Type} (xs : List α) : F := ofInt xs.length

/-- `float(flag)` -/
def flag (b : Bool) : F := ofInt (if b then 1 else 0)

/-- `max(0.0, x)` -/
def nonnegative (x : F) : F := PyFloat.max (ofInt 0) x

/-- `_fractional_hour` -/
def fractionalHour (t : Time) : F :=
  ofInt (t / 3600000000 % 24) + trueDiv (t / 60000000 % 60) 60 + trueDiv (t / 1000000 % 60) 3600 +
    trueDiv (t % 1000000) 3600000000

def txnLogAmount : Sourced F := .current (FloatMath.log1p (ofDecimal c.event.amount))

def txnRail (rail : Rail) : Sourced F := .current (flag (c.event.rail = rail))

def txnRailCard : Sourced F := c.txnRail .card

def txnRailA2a : Sourced F := c.txnRail .a2a

def txnRailAgentic : Sourced F := c.txnRail .agentic

def hourAngle : F := ofInt 2 * pi * fractionalHour c.event.eventTime / ofInt 24

def txnHourSin : Sourced F := .current (sin c.hourAngle)

def txnHourCos : Sourced F := .current (cos c.hourAngle)

def txnIntegrityPass : Sourced F := .current (flag (c.event.rail = .agentic && c.event.integrityStatus = .pass))

def txnOptionalRefCount : Sourced F := .current (count c.event.optionalRefs.items)

/-- `_EXPECTED_OPTIONAL_REFS` -/
def expectedOptionalRefs : ℤ := 7

def dqMissingOptionalCount : Sourced F :=
  .current (ofInt (max 0 (expectedOptionalRefs - c.event.optionalRefs.items.length)))

/-- `max(0.0, (available_at - event_time).total_seconds() * 1000)` -/
def lagMs (e : ObservedEvent) : F := nonnegative (totalSeconds (e.availableAt - e.eventTime) * ofInt 1000)

def dqCurrentAvailabilityLagMs : Sourced F := .current (lagMs c.event)

/-! ## The features of the actor, the counterparty and the pair -/

/-- a count of the actor's events -/
def actorCount (window : ℤ) : Sourced F := (c.actor (some window)).map count

def actorCount1m : Sourced F := c.actorCount minute

def actorCount10m : Sourced F := c.actorCount (10 * minute)

def actorCount1h : Sourced F := c.actorCount hour

def actorCount24h : Sourced F := c.actorCount day

/-- `_sum_amounts` -/
def sumAmounts (events : List ObservedEvent) : F := ofDecimal (Decimal.sum .default (events.map ObservedEvent.amount))

def actorAmount1h : Sourced F :=
  (c.events (c.state.actorAmountHistory.getD c.event.actorId []) (some hour) none).map sumAmounts

def actorAmount24h : Sourced F := (c.amountEvents true).map sumAmounts

def counterpartyCount1h : Sourced F := (c.counterparty (some hour)).map count

def counterpartyCount24h : Sourced F := (c.counterparty (some day)).map count

def counterpartyAmount24h : Sourced F := (c.amountEvents false).map sumAmounts

/-- `_actor_outcomes` -/
def actorOutcomes (kinds : List EventKind) (window : ℤ) : Sourced F :=
  (c.events (c.state.actorHistory.getD c.event.actorId []) (some window) (some kinds)).map count

def actorPriorDecline1h : Sourced F := c.actorOutcomes [.authorizationDeclined] hour

def actorPriorChallenge1h : Sourced F := c.actorOutcomes [.authenticationChallenge] hour

def actorPriorReturn24h : Sourced F := c.actorOutcomes [.transferReturned] day

def counterpartyPriorRefund24h : Sourced F :=
  (c.events (c.state.counterpartyHistory.getD c.event.counterpartyId []) (some day) (some [.refund])).map count

/-- `_elapsed`: the seconds since the first or the last of the events -/
def elapsed (first : Bool) (events : List ObservedEvent) : F :=
  let times := events.map ObservedEvent.eventTime
  match if first then times.min? else times.max? with
  | none => sentinel
  | some sourceTime => nonnegative (totalSeconds (c.event.eventTime - sourceTime))

def actorSecondsSinceFirst : Sourced F := (c.actor none).map (c.elapsed true)

def actorSecondsSinceLast : Sourced F := (c.actor none).map (c.elapsed false)

def counterpartySecondsSinceFirst : Sourced F := (c.counterparty none).map (c.elapsed true)

def counterpartySecondsSinceLast : Sourced F := (c.counterparty none).map (c.elapsed false)

def pairSecondsSinceFirst : Sourced F := (c.pair none).map (c.elapsed true)

def pairSecondsSinceLast : Sourced F := (c.pair none).map (c.elapsed false)

def actorDistinctCounterparties24h : Sourced F :=
  (c.actor (some day)).map fun es => count (es.map ObservedEvent.counterpartyId).dedup

def counterpartyDistinctActors24h : Sourced F :=
  (c.counterparty (some day)).map fun es => count (es.map ObservedEvent.actorId).dedup

/-- `_zscore` -/
def zscore (history : List ObservedEvent) : F :=
  if history.isEmpty then sentinel
  else
    let amounts : List F := history.map fun e => ofDecimal e.amount
    let deviation := FeatureMath.pstdev amounts
    if FeatureMath.isZero deviation then ofInt 0
    else (ofDecimal c.event.amount - FeatureMath.fmean amounts) / deviation

def actorAmountZscore24h : Sourced F := (c.amountEvents true).map c.zscore

def counterpartyAmountZscore24h : Sourced F := (c.amountEvents false).map c.zscore

def pairPriorCount : Sourced F := (c.pair none).map count

/-! ## The features of the graph -/

/-- `_neighbors` -/
def neighbors (edges : List GraphEdge) : Dict String (List String) := Components.adjacency (edges.map GraphEdge.ends)

/-- `_component`: the nodes that the search from the two parties sees, and the edges between them -/
def component (edges : List GraphEdge) : List String × List (String × String) :=
  let adjacent := neighbors edges
  let seeds := [c.event.actorId, c.event.counterpartyId].dedup.filter (· ∈ adjacent.keys)
  let seen := Components.explore adjacent [] seeds
  (seen, ((edges.filter fun e => e.actorId ∈ seen && e.counterpartyId ∈ seen).map fun e =>
    Components.undirected e.ends).dedup)

def graphActorFanout : Sourced F :=
  (c.graphEdges day).map fun edges =>
    count ((edges.filter fun e => e.actorId = c.event.actorId).map GraphEdge.counterpartyId).dedup

def graphCounterpartyFanin : Sourced F :=
  (c.graphEdges day).map fun edges =>
    count ((edges.filter fun e => e.counterpartyId = c.event.counterpartyId).map GraphEdge.actorId).dedup

def graphSharedNeighborCount : Sourced F :=
  (c.graphEdges day).map fun edges =>
    count (((neighbors edges).getD c.event.actorId []).filter fun node =>
      node ∈ (neighbors edges).getD c.event.counterpartyId [])

def graphTwoHopReach : Sourced F :=
  (c.graphEdges day).map fun edges =>
    let direct := (neighbors edges).getD c.event.actorId []
    let twoHop := (direct.flatMap fun node => (neighbors edges).getD node []).dedup
    count (twoHop.filter fun node => node ∉ direct && node ≠ c.event.actorId)

def graphComponentSize : Sourced F := (c.graphEdges day).map fun edges => count (c.component edges).1

/-- `len(edges) / possible` of that many nodes -/
def density (nodes edges : ℕ) : F :=
  let possible : F := trueDiv (nodes * (nodes - 1) : ℤ) 2
  if FeatureMath.isZero possible then ofInt 0 else ofInt edges / possible

def graphEdgeDensity : Sourced F :=
  (c.graphEdges day).map fun edges => density (c.component edges).1.length (c.component edges).2.length

def graphRepeatedEdge : Sourced F :=
  (c.graphEdges day).map fun edges =>
    flag (edges.any fun e => e.actorId = c.event.actorId && e.counterpartyId = c.event.counterpartyId)

def graphBurstMotif : Sourced F :=
  (c.graphEdges hour).map fun edges =>
    count (edges.filter fun e => e.actorId = c.event.actorId || e.counterpartyId = c.event.counterpartyId)

def graphPriorSuspiciousCount : Sourced F :=
  (c.graphEdges day).map fun edges => count (edges.filter fun e => e.suspicious && e.actorId = c.event.actorId)

/-! ## The features of the data's quality -/

def dqMeanHistoryLagMs : Sourced F :=
  c.history24h.map fun history => if history.isEmpty then sentinel else FeatureMath.fmean (history.map lagMs)

def dqLateEventCount : Sourced F := (c.events c.state.lateEventIds (some day) none).map count

def dqHistoryCount : Sourced F := c.history24h.map count

def dqHistoryAgeSeconds : Sourced F :=
  (c.events c.state.admittedIds none none).map fun history => c.elapsed true history

def dqDegradedState : Sourced F :=
  .map₂ (fun history late => flag (history.isEmpty || !late.isEmpty)) (c.events c.state.admittedIds none none)
    (c.events c.state.lateEventIds none none)

/-- the methods `_feature_…` by name -/
def methods : List (String × (FeatureContext → Sourced F)) :=
  [("txn_log_amount", txnLogAmount), ("txn_rail_card", txnRailCard), ("txn_rail_a2a", txnRailA2a),
    ("txn_rail_agentic", txnRailAgentic), ("txn_hour_sin", txnHourSin), ("txn_hour_cos", txnHourCos),
    ("txn_integrity_pass", txnIntegrityPass), ("txn_optional_ref_count", txnOptionalRefCount),
    ("actor_count_1m", actorCount1m), ("actor_count_10m", actorCount10m), ("actor_count_1h", actorCount1h),
    ("actor_count_24h", actorCount24h), ("actor_amount_1h", actorAmount1h), ("actor_amount_24h", actorAmount24h),
    ("counterparty_count_1h", counterpartyCount1h), ("counterparty_count_24h", counterpartyCount24h),
    ("counterparty_amount_24h", counterpartyAmount24h), ("actor_prior_decline_1h", actorPriorDecline1h),
    ("actor_prior_challenge_1h", actorPriorChallenge1h), ("actor_prior_return_24h", actorPriorReturn24h),
    ("counterparty_prior_refund_24h", counterpartyPriorRefund24h), ("actor_seconds_since_first", actorSecondsSinceFirst),
    ("actor_seconds_since_last", actorSecondsSinceLast), ("counterparty_seconds_since_first", counterpartySecondsSinceFirst),
    ("counterparty_seconds_since_last", counterpartySecondsSinceLast), ("pair_seconds_since_first", pairSecondsSinceFirst),
    ("pair_seconds_since_last", pairSecondsSinceLast),
    ("actor_distinct_counterparties_24h", actorDistinctCounterparties24h),
    ("counterparty_distinct_actors_24h", counterpartyDistinctActors24h), ("actor_amount_zscore_24h", actorAmountZscore24h),
    ("counterparty_amount_zscore_24h", counterpartyAmountZscore24h), ("pair_prior_count", pairPriorCount),
    ("graph_actor_fanout", graphActorFanout), ("graph_counterparty_fanin", graphCounterpartyFanin),
    ("graph_shared_neighbor_count", graphSharedNeighborCount), ("graph_two_hop_reach", graphTwoHopReach),
    ("graph_component_size", graphComponentSize), ("graph_edge_density", graphEdgeDensity),
    ("graph_repeated_edge", graphRepeatedEdge), ("graph_burst_motif", graphBurstMotif),
    ("graph_prior_suspicious_count", graphPriorSuspiciousCount), ("dq_missing_optional_count", dqMissingOptionalCount),
    ("dq_current_availability_lag_ms", dqCurrentAvailabilityLagMs), ("dq_mean_history_lag_ms", dqMeanHistoryLagMs),
    ("dq_late_event_count", dqLateEventCount), ("dq_history_count", dqHistoryCount),
    ("dq_history_age_seconds", dqHistoryAgeSeconds), ("dq_degraded_state", dqDegradedState)]

end

end FeatureContext

end Apar
