/-
The sentinel features (`features/sentinel.py`): rows sorted by decision time and event id, grouped into cohorts of one
decision time; every row of a cohort is projected from the history before the cohort, and the cohort is then added to
the history. A rule feature records the rows it read as its provenance.
-/
import Mathlib.Data.String.Basic
import Apar.Core.Cohorts
import Apar.Core.Floats
import Apar.Contracts.Event

namespace Apar

open Exec

namespace Sentinel

variable {F : Type}

/-- an instant and the offset of its time zone in microseconds; a naive time has none -/
structure DateTime where
  instant : Time
  utcoffset : Option ℤ
deriving DecidableEq

/-- `value.hour * 60 + value.minute` -/
def DateTime.totalMinutes (t : DateTime) : ℤ := (t.instant + t.utcoffset.getD 0) / 60000000 % 1440

/-- `V5DecisionRow`: what the projection reads of a decision -/
structure V5DecisionRow (F : Type) where
  eventId : String
  actorId : String
  counterpartyId : String
  amount : Decimal
  decisionAt : DateTime
  predictiveFeatures : Dict String F

inductive SentinelError where
  /-- naive and aware times do not compare -/
  | unorderable
  /-- an infinite square -/
  | overflow
  | nonFinite (eventId : String)
  | provenance (message : String)
deriving DecidableEq

structure SentinelFeatureCatalog where
  featureNames : List String
  catalogSha256 : String

/-! ## Provenance -/

/-- the historical sources of one row -/
structure SentinelFeatureProvenance where
  eventId : String
  decisionAt : DateTime
  sourceEventIds : List String
  maxSourceAvailableAt : Option DateTime
deriving DecidableEq

/-- the validators of `SentinelFeatureProvenance` -/
def SentinelFeatureProvenance.make (eventId : String) (decisionAt : DateTime) (sourceEventIds : List String)
    (maxSourceAvailableAt : Option DateTime) : Except SentinelError SentinelFeatureProvenance := do
  let isUtc (t : DateTime) : Bool := t.utcoffset = some 0
  check (isUtc decisionAt && maxSourceAvailableAt.all isUtc)
    (.provenance "feature provenance timestamps must be UTC")
  check (sourceEventIds = sortedSet sourceEventIds)
    (.provenance "feature source event IDs must be unique and canonical")
  check (maxSourceAvailableAt.isNone = sourceEventIds.isEmpty)
    (.provenance "feature source maximum and source IDs must agree")
  check (maxSourceAvailableAt.all fun t => t.instant < decisionAt.instant)
    (.provenance "feature sources must be available strictly before decision")
  pure ⟨eventId, decisionAt, sourceEventIds, maxSourceAvailableAt⟩

/-! ## History -/

/-- the indexes over earlier cohorts -/
structure History (F : Type) where
  actorEvents : Dict String (List (V5DecisionRow F)) := ∅
  counterpartyEvents : Dict String (List (V5DecisionRow F)) := ∅
  pairEvents : Dict (String × String) (List (V5DecisionRow F)) := ∅
  allEdgesSeen : ℕ := 0
  actorNodesSeen : Finset String := ∅
  cpNodesSeen : Finset String := ∅
  allPriorRows : List (V5DecisionRow F) := []

/-- phase 2: one row of the cohort joins the history -/
def History.add (h : History F) (row : V5DecisionRow F) : History F :=
  let pair := (row.actorId, row.counterpartyId)
  { actorEvents := h.actorEvents.set row.actorId (h.actorEvents.getD row.actorId [] ++ [row])
    counterpartyEvents :=
      h.counterpartyEvents.set row.counterpartyId (h.counterpartyEvents.getD row.counterpartyId [] ++ [row])
    pairEvents := h.pairEvents.set pair (h.pairEvents.getD pair [] ++ [row])
    allEdgesSeen := h.allEdgesSeen + 1
    actorNodesSeen := insert row.actorId h.actorNodesSeen
    cpNodesSeen := insert row.counterpartyId h.cpNodesSeen
    allPriorRows := h.allPriorRows ++ [row] }

/-! ## The features of one row -/

/-- the values of a row so far, and the rows that its rule features read -/
structure Draft (F : Type) where
  values : Dict String F
  sourceRows : Dict String (V5DecisionRow F)

def ruleProvenanceFeatures : List String :=
  ["actor_count_1m", "actor_count_10m", "graph_counterparty_fanin", "graph_actor_fanout", "actor_amount_zscore_24h",
    "counterparty_amount_zscore_24h", "graph_shared_neighbor_count", "pair_prior_count", "dq_degraded_state"]

/-- `_set_historical_feature` -/
def setHistoricalFeature (catalog : SentinelFeatureCatalog) (name : String) (value : F)
    (sources : List (V5DecisionRow F)) (d : Draft F) : Draft F :=
  if name ∉ catalog.featureNames then d
  else
    { values := d.values.set name value
      sourceRows :=
        if name ∈ ruleProvenanceFeatures then sources.foldl (fun s r => s.set r.eventId r) d.sourceRows
        else d.sourceRows }

/-- `(now - r.decision_at).total_seconds() <= seconds` -/
def V5DecisionRow.within (row r : V5DecisionRow F) (seconds : ℤ) : Bool :=
  row.decisionAt.instant - r.decisionAt.instant ≤ seconds * 1000000

/-- `r.decision_at < now and r.event_id != row.event_id` -/
def V5DecisionRow.follows (row r : V5DecisionRow F) : Bool :=
  r.decisionAt.instant < row.decisionAt.instant && r.eventId != row.eventId

variable [PyFloat F]

open PyFloat

def amounts (rows : List (V5DecisionRow F)) : List F := rows.map fun r => ofDecimal r.amount

/-- the seconds from the latest of the rows to this one, `-1.0` of no rows -/
def secondsSinceLast (row : V5DecisionRow F) (rows : List (V5DecisionRow F)) : F :=
  match (rows.map fun r => r.decisionAt.instant).max? with
  | some last => totalSeconds (row.decisionAt.instant - last)
  | none => ofInt (-1)

/-- `txn_hour_sin` and `txn_hour_cos` -/
def clockFeatures (row : V5DecisionRow F) (values : Dict String F) : Dict String F :=
  let angle : F := ofInt 2 * pi * ofInt row.decisionAt.totalMinutes / ofInt (24 * 60)
  (values.set "txn_hour_sin" (sin angle)).set "txn_hour_cos" (cos angle)

def velocityWindows : List (ℤ × String) := [(60, "1m"), (300, "5m"), (3600, "1h"), (86400, "24h"), (604800, "7d")]

/-- the amounts' z-score of a row against its actor's last day -/
def amountZscore (row : V5DecisionRow F) (actorRows24h : List (V5DecisionRow F)) : Except SentinelError F :=
  let amounts24h : List F := amounts actorRows24h
  if amounts24h.length < 3 then .ok (ofInt 0)
  else
    let n : F := ofInt amounts24h.length
    let mean := sum amounts24h / n
    match squares (amounts24h.map fun a => a - mean) with
    | none => .error .overflow
    | some deviations =>
      let variance := sum deviations / n
      let cent : F := ofDecimal ⟨1, -2⟩
      let std := PyFloat.max (sqrt (PyFloat.max variance cent)) cent
      .ok ((ofDecimal row.amount - mean) / std)

/-- the features of the row's actor -/
def actorFeatures (catalog : SentinelFeatureCatalog) (h : History F) (row : V5DecisionRow F) (d : Draft F) : Draft F :=
  let put := setHistoricalFeature catalog (F := F)
  let actorHistory := h.actorEvents.getD row.actorId []
  let priorActor := actorHistory.filter row.follows
  let actorRows1h := priorActor.filter fun r => row.within r 3600
  let actorRows24h := priorActor.filter fun r => row.within r 86400
  let firstSeen := ((actorHistory.map fun r => r.decisionAt.instant).min?).getD row.decisionAt.instant
  let distinctCps : F := ofInt ((priorActor.map fun r => r.counterpartyId).toFinset.card)
  let velocity := velocityWindows.foldl (fun d w =>
    let windowRows := priorActor.filter fun r => row.within r w.1
    put ("actor_count_" ++ w.2) (ofInt windowRows.length) windowRows d) d
  velocity
    |> put "actor_amount_1h" (sum (amounts actorRows1h)) actorRows1h
    |> put "actor_amount_24h" (sum (amounts actorRows24h)) actorRows24h
    |> put "actor_seconds_since_first" (totalSeconds (row.decisionAt.instant - firstSeen)) actorHistory
    |> put "actor_seconds_since_last" (secondsSinceLast row priorActor) priorActor
    |> put "actor_distinct_counterparties_24h" distinctCps priorActor
    |> put "graph_actor_fanout" distinctCps priorActor

/-- the features of the row's counterparty -/
def counterpartyFeatures (catalog : SentinelFeatureCatalog) (h : History F) (row : V5DecisionRow F) (d : Draft F) :
    Draft F :=
  let put := setHistoricalFeature catalog (F := F)
  let priorCp := (h.counterpartyEvents.getD row.counterpartyId []).filter fun r =>
    row.follows r && row.within r 86400
  let priorCp1h := priorCp.filter fun r => row.within r 3600
  let distinctActors : F :=
    ofInt (((priorCp.filter fun r => row.within r 86400).map fun r => r.actorId).toFinset.card)
  d |> put "counterparty_count_1h" (ofInt priorCp1h.length) priorCp1h
    |> put "counterparty_count_24h" (ofInt priorCp.length) priorCp
    |> put "counterparty_amount_24h" (sum (amounts priorCp)) priorCp
    |> put "counterparty_distinct_actors_24h" distinctActors priorCp
    |> put "graph_counterparty_fanin" distinctActors priorCp

/-- the features of the row's pair, and the z-score of its amount -/
def pairFeatures (catalog : SentinelFeatureCatalog) (h : History F) (row : V5DecisionRow F) (d : Draft F) :
    Except SentinelError (Draft F) := do
  let put := setHistoricalFeature catalog (F := F)
  let priorPair := (h.pairEvents.getD (row.actorId, row.counterpartyId) []).filter row.follows
  let actorRows24h := ((h.actorEvents.getD row.actorId []).filter row.follows).filter fun r => row.within r 86400
  let zscore ← amountZscore row actorRows24h
  pure (d
    |> put "pair_prior_count" (ofInt priorPair.length) priorPair
    |> put "pair_seconds_since_last" (secondsSinceLast row priorPair) priorPair
    |> put "graph_repeated_edge" (ofInt (min priorPair.length 5)) priorPair
    |> put "actor_amount_zscore_24h" zscore actorRows24h)

/-- the features of the graph before the cohort -/
def graphFeatures (catalog : SentinelFeatureCatalog) (h : History F) (row : V5DecisionRow F) (d : Draft F) : Draft F :=
  let put := setHistoricalFeature catalog (F := F)
  let graphCpRows := (h.counterpartyEvents.getD row.counterpartyId []).filter fun r =>
    r.decisionAt.instant < row.decisionAt.instant
  let cpActorsPrior := (graphCpRows.map fun r => r.actorId).toFinset
  let shared := (cpActorsPrior.erase row.actorId).card
  let recentBurst := ((h.actorEvents.getD row.actorId []).filter row.follows).filter fun r => row.within r 60
  let priorGraphSize := (h.actorNodesSeen ∪ h.cpNodesSeen).card
  let graphNodes := max (h.actorNodesSeen.card * h.cpNodesSeen.card) 1
  d |> put "graph_shared_neighbor_count" (ofInt shared) graphCpRows
    |> put "graph_two_hop_reach" (ofInt (min (shared * 2) 20)) graphCpRows
    |> put "graph_burst_motif" (ofInt (min recentBurst.length 10)) recentBurst
    |> put "graph_component_size" (ofInt priorGraphSize) h.allPriorRows
    |> put "graph_edge_density" (trueDiv h.allEdgesSeen graphNodes) h.allPriorRows

/-! ## Emission -/

/-- what the projection emits for a row -/
structure Emission (F : Type) where
  values : Dict String F
  vector : List F
  provenance : SentinelFeatureProvenance

/-- the latest decision of the rows; of equal instants, the first -/
def latest : List DateTime → Option DateTime
  | [] => none
  | t :: ts => some (ts.foldl (fun m u => if m.instant < u.instant then u else m) t)

/-- phase 1: a row is projected from the history before its cohort -/
def emitRow (catalog : SentinelFeatureCatalog) (h : History F) (row : V5DecisionRow F) :
    Except SentinelError (Emission F) := do
  let d := counterpartyFeatures catalog h row
    (actorFeatures catalog h row ⟨clockFeatures row row.predictiveFeatures, ∅⟩)
  let d := graphFeatures catalog h row (← pairFeatures catalog h row d)
  let vector := catalog.featureNames.map fun name => d.values.getD name (ofInt 0)
  check (vector.all FloatText.isFinite) (.nonFinite row.eventId)
  let sourceEventIds := sortedSet d.sourceRows.keys
  let maxSource := latest (sourceEventIds.filterMap fun id => (d.sourceRows.get? id).map fun r => r.decisionAt)
  let provenance ← SentinelFeatureProvenance.make row.eventId row.decisionAt sourceEventIds maxSource
  pure ⟨d.values, vector, provenance⟩

structure SentinelFeatureBatch (F : Type) where
  rows : List (Dict String F)
  matrix : List (List F)
  provenance : List SentinelFeatureProvenance
  batchSha256 : String
  catalogSha256 : String

/-- `", ".join(xs)` in brackets -/
def listText (xs : List (List Char)) : List Char := '[' :: (xs.intersperse [',', ' ']).flatten ++ [']']

/-- `json.dumps({"rows": matrix, "names": names}, sort_keys=True)` -/
def contentText (names : List String) (matrix : List (List F)) : List Char :=
  "\x7b\"names\": ".toList ++ listText (names.map fun name => JsonText.quote (PyStr.ofString name)) ++
    ", \"rows\": ".toList ++ listText (matrix.map fun vector => listText (vector.map FloatText.repr)) ++ "\x7d".toList

def decisionKey (r : V5DecisionRow F) : Time ×ₗ String := toLex (r.decisionAt.instant, r.eventId)

/-- naive and aware times are not compared -/
def orderable (rows : List (V5DecisionRow F)) : Bool :=
  rows.all (fun r => r.decisionAt.utcoffset.isSome) || rows.all (fun r => r.decisionAt.utcoffset.isNone)

/-- `build_sentinel_features` -/
def buildSentinelFeatures [Sha256] (rows : List (V5DecisionRow F)) (catalog : SentinelFeatureCatalog) :
    Except SentinelError (SentinelFeatureBatch F) := do
  check (orderable rows) .unorderable
  let emissions ← Cohorts.runCohorts (emitRow catalog) History.add {}
    (Cohorts.cohorts (fun r => r.decisionAt.instant) (sortBy decisionKey rows))
  let matrix := emissions.map Emission.vector
  let content := (contentText catalog.featureNames matrix).map fun c => UInt8.ofNat c.toNat
  pure {
    rows := emissions.map Emission.values
    matrix := matrix
    provenance := emissions.map Emission.provenance
    batchSha256 := Sha256.hexdigestBytes content
    catalogSha256 := catalog.catalogSha256 }

end Sentinel

end Apar
